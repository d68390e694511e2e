import ChangeAudit.Event

/-!
# The gate that events pass

A handler decides about an event, or fails. A `Gate` asks its handlers in order until one
suppresses the event; a failure is counted and the event goes on as if the handler had let it
through. The gate also counts how often each slot was asked.
-/

namespace ChangeAudit

/-- What a handler decides about an event. -/
inductive Decision where
  | pass
  | suppress
  deriving DecidableEq

/-- How asking a handler ends. -/
inductive Outcome where
  | decided (decision : Decision)
  /-- The handler answered with an error. -/
  | failed
  /-- The handler broke down. -/
  | crashed
  deriving DecidableEq

namespace Outcome

/-- Whether the handler suppressed the event. -/
def suppresses : Outcome → Bool
  | .decided .suppress => true
  | _ => false

/-- Whether the handler gave no decision. -/
def isFailure : Outcome → Bool
  | .decided _ => false
  | _ => true

end Outcome

/-- An observer of events with a name. -/
structure Handler where
  name : String
  handle : Event → Outcome

/-- The handler that suppresses every event of the listed entity types. -/
def Handler.typeFilter (types : List String) : Handler where
  name := "entity-type-filter"
  handle e := .decided (if types.contains e.entityType then .suppress else .pass)

/-- A handler at a gate, with the number of times it was asked and failed. -/
structure Slot where
  handler : Handler
  calls : Nat
  failures : Nat

/-- The slot after its handler was asked about an event. -/
def Slot.asked (s : Slot) (e : Event) : Slot :=
  { s with
    calls := s.calls + 1
    failures := s.failures + if (s.handler.handle e).isFailure then 1 else 0 }

/-- Handlers in the order in which they are asked. -/
structure Gate where
  slots : List Slot

namespace Gate

/-- The gate of handlers that were never asked. -/
def ofHandlers (handlers : List Handler) : Gate := ⟨handlers.map fun h => ⟨h, 0, 0⟩⟩

/-- The gate without handlers. -/
def empty : Gate := ofHandlers []

/-- The number of handlers. -/
def size (c : Gate) : Nat := c.slots.length

/-- Asks slots in order, up to the first that suppresses the event. -/
def processSlots (e : Event) : List Slot → Decision × List Slot
  | [] => (.pass, [])
  | s :: rest =>
    if (s.handler.handle e).suppresses then (.suppress, s.asked e :: rest)
    else
      let (d, rest) := processSlots e rest
      (d, s.asked e :: rest)

/-- Asks the handlers about an event. -/
def process (c : Gate) (e : Event) : Decision × Gate :=
  let (d, slots) := processSlots e c.slots
  (d, ⟨slots⟩)

/-- Keeps the events that no handler suppresses, in order. -/
def filter (c : Gate) : List Event → List Event × Gate
  | [] => ([], c)
  | e :: es =>
    let (d, c) := c.process e
    let (kept, c) := filter c es
    (if d = .pass then e :: kept else kept, c)

/-- The name and number of failures of each handler, in order. -/
def failures (c : Gate) : List (String × Nat) :=
  c.slots.map fun s => (s.handler.name, s.failures)

/-- How often each handler was asked, in order. -/
def calls (c : Gate) : List Nat := c.slots.map Slot.calls

end Gate

end ChangeAudit
