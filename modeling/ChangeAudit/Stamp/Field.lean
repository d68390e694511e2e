import ChangeAudit.Json.Decode
import ChangeAudit.Json.Encode

/-!
# Stamp fields

A `StampRole` says what a stamp is for, a `FieldSpec` which field of an entity holds it, and a
`FieldOverride` what to change in a spec: each attribute it has replaces the spec's
(`FieldOverride.apply`). Both are written to and read from JSON; an override has a second spelling
for its name and its exclusion.
-/

namespace ChangeAudit

/-- What a stamp field is for: one of the four standard roles, or one that the host defines. -/
inductive StampRole where
  | dateCreated
  | lastUpdated
  | createdBy
  | lastUpdatedBy
  | custom (name : String)
  deriving DecidableEq

namespace StampRole

/-- The name of a role in documents. -/
def name : StampRole → String
  | .dateCreated => "dateCreated"
  | .lastUpdated => "lastUpdated"
  | .createdBy => "createdBy"
  | .lastUpdatedBy => "lastUpdatedBy"
  | .custom name => name

/-- The role that a name stands for. -/
def ofName (name : String) : StampRole :=
  if name = "dateCreated" then .dateCreated
  else if name = "lastUpdated" then .lastUpdated
  else if name = "createdBy" then .createdBy
  else if name = "lastUpdatedBy" then .lastUpdatedBy
  else .custom name

/-- Whether the role is one of the four standard ones. -/
def isStandard : StampRole → Bool
  | .custom _ => false
  | _ => true

theorem name_ofName (name : String) : (ofName name).name = name := by
  unfold ofName
  split
  next h => exact h.symm
  split
  next h => exact h.symm
  split
  next h => exact h.symm
  split
  next h => exact h.symm
  rfl

end StampRole

/-- The kind of value that a stamp field holds. -/
inductive FieldKind where
  | timestamp
  | actorId
  | flag
  | custom
  deriving DecidableEq

namespace FieldKind

/-- The name of a kind in documents. -/
def name : FieldKind → String
  | .timestamp => "timestamp"
  | .actorId => "actorId"
  | .flag => "flag"
  | .custom => "custom"

/-- The kind that a name stands for. -/
def ofName? (name : String) : Option FieldKind :=
  [timestamp, actorId, flag, custom].find? fun k => k.name = name

/-- Reads the name of a kind. -/
def decode? (t : Term) : Option FieldKind := t.name?.bind ofName?

end FieldKind

/-- A stamp field. -/
structure FieldSpec where
  name : String
  kind : FieldKind
  nullable : Bool
  excluded : Bool
  sqlType : Option String
  deriving DecidableEq

namespace FieldSpec

/-- A nullable field that is kept and has no column type. -/
def plain (name : String) (kind : FieldKind) : FieldSpec := ⟨name, kind, true, false, none⟩

/-- The document of a spec. -/
def toJson (s : FieldSpec) : Json :=
  .struct [("name", some (.string s.name)), ("type", some (.string s.kind.name)),
    ("nullable", some (.bool s.nullable)), ("excluded", some (.bool s.excluded)),
    ("sqlType", s.sqlType.map .string)]

/-- Reads a spec. -/
def decode? (t : Term) : Option FieldSpec :=
  match t.fields? [["name"], ["type"], ["nullable"], ["excluded"], ["sqlType"]] with
  | some [name, kind, nullable, excluded, sqlType] => do
    some {
      name := ← Term.required? Term.string? name
      kind := ← Term.required? FieldKind.decode? kind
      nullable := ← Term.required? Term.bool? nullable
      excluded := ← Term.defaulted? Term.bool? false excluded
      sqlType := ← Term.optional? Term.string? sqlType }
  | _ => none

end FieldSpec

/-- Changes to a stamp field; an absent attribute changes nothing. -/
structure FieldOverride where
  name : Option String := none
  kind : Option FieldKind := none
  nullable : Option Bool := none
  excluded : Option Bool := none
  sqlType : Option String := none
  deriving DecidableEq

namespace FieldOverride

/-- Leaves the role out. -/
def exclude : FieldOverride := { excluded := some true }

/-- Gives the field another name. -/
def rename (name : String) : FieldOverride := { name := some name }

/-- The spec with the attributes of the override in place of its own. -/
def apply (given : FieldOverride) (base : FieldSpec) : FieldSpec where
  name := given.name.getD base.name
  kind := given.kind.getD base.kind
  nullable := given.nullable.getD base.nullable
  excluded := given.excluded.getD base.excluded
  sqlType := given.sqlType.or base.sqlType

/-- The document of an override. -/
def toJson (o : FieldOverride) : Json :=
  .struct [("name", o.name.map .string), ("type", o.kind.map fun k => .string k.name),
    ("nullable", o.nullable.map .bool), ("excluded", o.excluded.map .bool),
    ("sqlType", o.sqlType.map .string)]

/-- Reads an override. -/
def decode? (t : Term) : Option FieldOverride :=
  match t.fields? [["name", "fieldname"], ["type"], ["nullable"], ["excluded", "exclude"],
      ["sqlType"]] with
  | some [name, kind, nullable, excluded, sqlType] => do
    some {
      name := ← Term.optional? Term.string? name
      kind := ← Term.optional? FieldKind.decode? kind
      nullable := ← Term.optional? Term.bool? nullable
      excluded := ← Term.optional? Term.bool? excluded
      sqlType := ← Term.optional? Term.string? sqlType }
  | _ => none

end FieldOverride

end ChangeAudit
