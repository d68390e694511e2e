import ChangeAudit.Fault
import ChangeAudit.Stamp.Field
import ChangeAudit.Text.Capital

/-!
# Stamp plans

A `StampPlan` lists the roles that an entity type keeps, each with its field. `StampPlan.build` lays
overrides over role defaults, in order, and then keeps the roles that are not excluded; it fails at
the first override of a role that it knows nothing about, and else at the first kept role whose
field name an earlier one has. What a persistence layer derives from a plan (accessors, constraints,
column types, markers) lists the kept fields in order.
-/

namespace ChangeAudit

/-- Roles with their fields. -/
abbrev RoleSpecs := OrderedMap StampRole FieldSpec

/-- The roles that an entity type keeps. -/
structure StampPlan where
  fields : RoleSpecs
  deriving DecidableEq

/-- The names under which a stamped type offers a field. -/
structure Accessor where
  field : String
  getter : String
  setter : String
  deriving DecidableEq

/-- What a validator has to check of a field. -/
structure FieldRule where
  field : String
  nullable : Bool
  blank : Bool
  deriving DecidableEq

/-- The column type of a field. -/
structure ColumnMapping where
  field : String
  sqlType : String
  deriving DecidableEq

namespace StampPlan

/-- The standard roles: required timestamps, optional actors. -/
def standardRoles : RoleSpecs :=
  .ofList [
    (.dateCreated, { FieldSpec.plain "dateCreated" .timestamp with nullable := false }),
    (.lastUpdated, { FieldSpec.plain "lastUpdated" .timestamp with nullable := false }),
    (.createdBy, .plain "createdBy" .actorId),
    (.lastUpdatedBy, .plain "lastUpdatedBy" .actorId)]

/-- The spec of a role under an override. -/
def resolve (specs : RoleSpecs) (role : StampRole) (given : FieldOverride) :
    Except StampFault FieldSpec :=
  match specs.get? role, given.kind with
  | some base, _ => .ok (given.apply base)
  | none, some kind => .ok (given.apply (.plain role.name kind))
  | none, none => .error (.unknownRole role.name)

/-- The role defaults under overrides, one after the other. -/
def mergeRoles (specs : RoleSpecs) : List (StampRole × FieldOverride) → Except StampFault RoleSpecs
  | [] => .ok specs
  | (role, given) :: rest =>
    match resolve specs role given with
    | .ok spec => mergeRoles (specs.insert role spec) rest
    | .error e => .error e

/-- The kept role that has a field of this name. -/
def owner? (kept : List (StampRole × FieldSpec)) (field : String) : Option StampRole :=
  (kept.find? fun k => k.2.name = field).map Prod.fst

/-- Adds the roles that are not excluded, as long as their field names are free. -/
def keepFields (kept : RoleSpecs) : List (StampRole × FieldSpec) → Except StampFault RoleSpecs
  | [] => .ok kept
  | (role, spec) :: rest =>
    if spec.excluded then keepFields kept rest
    else
      match owner? kept.entries spec.name with
      | some first => .error (.conflict spec.name first.name role.name)
      | none => keepFields (kept.insert role spec) rest

/-- The plan of role defaults and overrides. -/
def build (defaults : RoleSpecs) (overrides : OrderedMap StampRole FieldOverride) :
    Except StampFault StampPlan :=
  match mergeRoles defaults overrides.entries with
  | .error e => .error e
  | .ok merged =>
    match keepFields .empty merged.entries with
    | .error e => .error e
    | .ok fields => .ok ⟨fields⟩

/-- Overrides by role, from overrides by role name. -/
def roleOverrides (named : OrderedMap String FieldOverride) : OrderedMap StampRole FieldOverride :=
  .ofList (named.entries.map fun e => (StampRole.ofName e.1, e.2))

/-- The plan of the standard roles under overrides by role name. -/
def ofOverrides (named : OrderedMap String FieldOverride) : Except StampFault StampPlan :=
  build standardRoles (roleOverrides named)

/-- The field of a role, if the role is kept. -/
def field? (plan : StampPlan) (role : StampRole) : Option FieldSpec := plan.fields.get? role

/-- The name of the field of a role, if the role is kept. -/
def fieldName? (plan : StampPlan) (role : StampRole) : Option String :=
  (plan.field? role).map FieldSpec.name

/-- The kept fields in order. -/
def specs (plan : StampPlan) : List FieldSpec := plan.fields.values

/-- The number of kept roles. -/
def size (plan : StampPlan) : Nat := plan.fields.size

/-- The names of the kept fields in order. -/
def fieldNames (plan : StampPlan) : List String := plan.specs.map FieldSpec.name

/-- Whether a kept field has this name. -/
def isStampField (plan : StampPlan) (name : String) : Bool :=
  plan.specs.any fun s => s.name = name

/-- The accessor of a field: flags are asked with `is`, anything else is got. -/
def accessor (spec : FieldSpec) : Accessor :=
  let cap := Text.capitalize spec.name
  { field := spec.name
    getter := (if spec.kind = .flag then "is" else "get") ++ cap
    setter := "set" ++ cap }

/-- The accessors of the kept fields. -/
def accessors (plan : StampPlan) : List Accessor := plan.specs.map accessor

/-- The constraints of the kept fields: a field may be blank exactly when it may be null. -/
def rules (plan : StampPlan) : List FieldRule :=
  plan.specs.map fun s => ⟨s.name, s.nullable, s.nullable⟩

/-- The column types of the kept fields that have one. -/
def columns (plan : StampPlan) : List ColumnMapping :=
  plan.specs.filterMap fun s => s.sqlType.map fun t => ⟨s.name, t⟩

/-- The field names by role name. -/
def markers (plan : StampPlan) : OrderedMap String String :=
  .ofList (plan.fields.entries.map fun e => (e.1.name, e.2.name))

end StampPlan

/-- The document of a constraint. -/
def FieldRule.toJson (c : FieldRule) : Json :=
  .struct [("field", some (.string c.field)), ("nullable", some (.bool c.nullable)),
    ("blank", some (.bool c.blank))]

/-- The document of a column type. -/
def ColumnMapping.toJson (m : ColumnMapping) : Json :=
  .struct [("field", some (.string m.field)), ("sqlType", some (.string m.sqlType))]

end ChangeAudit
