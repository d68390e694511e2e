import ChangeAudit.Instant.Rfc3339
import ChangeAudit.Json.Decode
import ChangeAudit.Json.Encode

/-!
# Audit events

An `Event` says that an entity was inserted, updated or deleted, by whom and when; one with a
property name says what that property was before and is now, one without is a summary of the whole
transition. Absent fields are left out of its document.
-/

namespace ChangeAudit

/-- The transition that an event reports. -/
inductive EventKind where
  | insert
  | update
  | delete
  deriving DecidableEq

namespace EventKind

/-- The name of a kind in documents and logs. -/
def name : EventKind → String
  | .insert => "INSERT"
  | .update => "UPDATE"
  | .delete => "DELETE"

/-- Reads the name of a kind. -/
def decode? (t : Term) : Option EventKind :=
  t.name?.bind fun n => [insert, update, delete].find? fun k => k.name = n

end EventKind

/-- A change of an entity, or of one of its properties. -/
structure Event where
  id : String
  entityType : String
  entityId : String
  property : Option String
  oldValue : Option String
  newValue : Option String
  kind : EventKind
  actor : Option String
  timestamp : Instant
  deriving DecidableEq

namespace Event

/-- Whether the event has no property. -/
def isSummary (e : Event) : Bool := e.property.isNone

/-- The document of an event. -/
def toJson (e : Event) : Json :=
  .struct [("id", some (.string e.id)), ("entityType", some (.string e.entityType)),
    ("entityId", some (.string e.entityId)), ("propertyName", e.property.map .string),
    ("oldValue", e.oldValue.map .string), ("newValue", e.newValue.map .string),
    ("eventType", some (.string e.kind.name)), ("actor", e.actor.map .string),
    ("timestamp", some (.string e.timestamp.text))]

/-- Reads an event. -/
def decode? (t : Term) : Option Event :=
  match t.fields? [["id"], ["entityType"], ["entityId"], ["propertyName"], ["oldValue"],
      ["newValue"], ["eventType"], ["actor"], ["timestamp"]] with
  | some [id, entityType, entityId, property, oldValue, newValue, kind, actor, timestamp] => do
    some {
      id := ← Term.required? Term.string? id
      entityType := ← Term.required? Term.string? entityType
      entityId := ← Term.required? Term.string? entityId
      property := ← Term.optional? Term.string? property
      oldValue := ← Term.optional? Term.string? oldValue
      newValue := ← Term.optional? Term.string? newValue
      kind := ← Term.required? EventKind.decode? kind
      actor := ← Term.optional? Term.string? actor
      timestamp := ← Term.required? (fun t => t.string?.bind Instant.parse?) timestamp }
  | _ => none

end Event

end ChangeAudit
