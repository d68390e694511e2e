import ChangeAudit.Event
import ChangeAudit.Fault

/-!
# Sinks

An `EventSink` is offered batches of events and accepts each or says why not. `MemorySink` keeps the
latest events, as many as its capacity allows; `LogSink` writes one entry an event. Both accept
every batch.
-/

namespace ChangeAudit

/-- A place that batches of events go to. -/
class EventSink (σ : Type) where
  name : σ → String
  /-- The sink after a batch was offered, and why it was not accepted if it was not. -/
  emit : σ → List Event → σ × Except Fault Unit

/-- The latest events in memory; a capacity of zero is no limit. -/
structure MemorySink where
  capacity : Nat
  events : List Event

namespace MemorySink

/-- The sink of a capacity, without events. -/
def new (capacity : Nat) : MemorySink := ⟨capacity, []⟩

/-- The sink with the usual capacity. -/
def standard : MemorySink := new 10000

/-- Adds a batch and drops the oldest events beyond the capacity. -/
def emit (s : MemorySink) (batch : List Event) : MemorySink :=
  let all := s.events ++ batch
  { s with
    events := if 0 < s.capacity ∧ s.capacity < all.length then all.drop (all.length - s.capacity)
      else all }

/-- The events held, oldest first. -/
def all (s : MemorySink) : List Event := s.events

/-- The number of events held. -/
def count (s : MemorySink) : Nat := s.events.length

/-- The latest events, newest first. -/
def latest (s : MemorySink) (limit : Nat) : List Event := s.events.reverse.take limit

/-- Forgets the events. -/
def clear (s : MemorySink) : MemorySink := { s with events := [] }

instance : EventSink MemorySink where
  name _ := "memory"
  emit s batch := (s.emit batch, .ok ())

end MemorySink

/-- A log of entries, each a list of named texts. -/
structure LogSink where
  entries : List (List (String × String))

namespace LogSink

/-- The log without entries. -/
def empty : LogSink := ⟨[]⟩

/-- The entry of an event; a dash stands for what it does not have. -/
def entry (e : Event) : List (String × String) :=
  [("event_id", e.id), ("event_type", e.kind.name), ("entity_type", e.entityType),
    ("entity_id", e.entityId), ("property", e.property.getD "-"),
    ("old_value", e.oldValue.getD "-"), ("new_value", e.newValue.getD "-"),
    ("actor", e.actor.getD "-"), ("message", "Audit event")]

/-- Adds the entries of a batch. -/
def emit (s : LogSink) (batch : List Event) : LogSink := ⟨s.entries ++ batch.map entry⟩

instance : EventSink LogSink where
  name _ := "tracing"
  emit s batch := (s.emit batch, .ok ())

end LogSink

end ChangeAudit
