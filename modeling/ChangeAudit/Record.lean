import ChangeAudit.Instant.Rfc3339
import ChangeAudit.Json.Decode
import ChangeAudit.Json.Encode

/-!
# Records

A `Record` is an entity as ordered maps: its properties, and the stamp fields written so far.
`Record.snapshot` shows both as properties: the properties in their order, then the stamp fields
that are not properties themselves, a stamp's value taking the place of a property of the same name.
-/

namespace ChangeAudit

/-- Property values by name, in order. -/
abbrev Snapshot := OrderedMap String Json

/-- The value of a stamp field. -/
inductive StampValue where
  | timestamp (instant : Instant)
  | actor (name : String)
  | flag (value : Bool)
  | custom (value : Json)
  deriving DecidableEq

namespace StampValue

/-- The value as an ordinary property: a timestamp is cut off at milliseconds. -/
def property : StampValue → Json
  | .timestamp t => .string t.millisText
  | .actor name => .string name
  | .flag b => .bool b
  | .custom j => j

/-- The timestamp of a timestamp stamp. -/
def timestamp? : StampValue → Option Instant
  | .timestamp t => some t
  | _ => none

/-- The actor of an actor stamp. -/
def actor? : StampValue → Option String
  | .actor name => some name
  | _ => none

/-- The document of a stamp value: its kind and its exact value. -/
def toJson : StampValue → Json
  | .timestamp t => .object [("kind", .string "timestamp"), ("value", .string t.text)]
  | .actor name => .object [("kind", .string "actor"), ("value", .string name)]
  | .flag b => .object [("kind", .string "flag"), ("value", .bool b)]
  | .custom j => .object [("kind", .string "custom"), ("value", j)]

/-- Reads an instant. -/
def instant? (t : Term) : Option Instant := t.string?.bind Instant.parse?

/-- Reads a value of the named kind. -/
def ofKind? (kind : String) (t : Term) : Option StampValue :=
  if kind = "timestamp" then (instant? t).map .timestamp
  else if kind = "actor" then t.string?.map .actor
  else if kind = "flag" then t.bool?.map .flag
  else if kind = "custom" then t.json?.map .custom
  else none

/-- Reads a stamp value. -/
def decode? (t : Term) : Option StampValue :=
  match t.fields? [["kind"], ["value"]] with
  | some [some kind, some value] => kind.name?.bind fun k => ofKind? k value
  | _ => none

end StampValue

/-- An entity as ordered maps. -/
structure Record where
  entityType : String
  id : String
  properties : Snapshot
  stamps : OrderedMap String StampValue
  deriving DecidableEq

namespace Record

/-- The record without properties and stamps. -/
def new (entityType id : String) : Record := ⟨entityType, id, .empty, .empty⟩

/-- Gives a property a value, in place if it has one. -/
def set (r : Record) (name : String) (value : Json) : Record :=
  { r with properties := r.properties.insert name value }

/-- The value of an ordinary property. -/
def get? (r : Record) (name : String) : Option Json := r.properties.get? name

/-- The value of a stamp field, if it is set. -/
def stamp? (r : Record) (field : String) : Option StampValue := r.stamps.get? field

/-- Gives a stamp field a value, in place if it has one. -/
def setStamp (r : Record) (field : String) (value : StampValue) : Record :=
  { r with stamps := r.stamps.insert field value }

/-- Properties and stamps as one list of properties. -/
def snapshot (r : Record) : Snapshot :=
  r.properties.insertAll (r.stamps.entries.map fun e => (e.1, e.2.property))

/-- The document of a record. -/
def toJson (r : Record) : Json :=
  .struct [("entityType", some (.string r.entityType)), ("id", some (.string r.id)),
    ("properties", some (.ofMap (fun j => j) r.properties)),
    ("stamps", some (.ofMap StampValue.toJson r.stamps))]

/-- Reads a record. -/
def decode? (t : Term) : Option Record :=
  match t.fields? [["entityType"], ["id"], ["properties"], ["stamps"]] with
  | some [entityType, id, properties, stamps] => do
    some {
      entityType := ← Term.required? Term.string? entityType
      id := ← Term.required? Term.string? id
      properties := ← Term.defaulted? (Term.map? Term.json?) .empty properties
      stamps := ← Term.defaulted? (Term.map? StampValue.decode?) .empty stamps }
  | _ => none

end Record

end ChangeAudit
