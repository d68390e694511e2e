import ChangeAudit.Gate
import ChangeAudit.Policy.Store
import ChangeAudit.Transition
import ChangeAudit.Sink
import ChangeAudit.Stamping

/-!
# The audit trail

A `Trail` is what a persistence layer calls: it stamps the records of registered types before they
are written, and after that records the transition, asks its gate and delivers the events that
pass to its sink. A `Transaction` does the same, but keeps its events until it commits while the live
policy is transactional.
-/

namespace ChangeAudit

/-- How a trail treats the records of a type. -/
structure Registration where
  plan : Option StampPlan
  audited : Bool

/-- Sink, gate, policies, registered types, and what recording draws from. -/
structure Trail (σ : Type) where
  sink : σ
  gate : Gate
  sealer : Option Sealer
  store : PolicyStore
  registry : OrderedMap String Registration
  supply : Supply

/-- A unit of work: events that wait for its commit. -/
structure Transaction where
  pending : List Event

/-- The transaction without events. -/
def Transaction.empty : Transaction := ⟨[]⟩

namespace Trail

variable {σ : Type}

/-- The trail over a sink and a policy store, without handlers, sealer and registered types. -/
def new (sink : σ) (store : PolicyStore) : Trail σ :=
  ⟨sink, .empty, none, store, .empty, .fresh⟩

/-- Registers a type, in place of its earlier options. -/
def register (t : Trail σ) (entityType : String) (options : Registration) : Trail σ :=
  { t with registry := t.registry.insert entityType options }

/-- The options of a registered type. -/
def options? (t : Trail σ) (entityType : String) : Option Registration :=
  t.registry.get? entityType

/-- Stamps a record of a type that is registered with a plan; any other stays as it is. -/
def stamp (t : Trail σ) (phase : StampPhase) (now : Instant) (record : Record) :
    Except Fault Record :=
  match (t.options? record.entityType).bind Registration.plan with
  | some plan => stampAt plan phase t.store.live.actor now record
  | none => .ok record

/-- The events of a transition that pass the handlers, and whether the live policy holds them until a
commit. -/
def observe (t : Trail σ) (now : Instant) (record : Record) (transition : Transition) :
    Trail σ × List Event × Bool :=
  match t.options? record.entityType with
  | some ⟨_, true⟩ =>
    let live := t.store.live
    let (events, supply) :=
      transition.events live.policy t.sealer live.actor now record t.supply
    let (kept, gate) := t.gate.filter events
    ({ t with gate := gate, supply := supply }, kept, live.policy.transactional)
  | _ => (t, [], false)

/-- Hands a batch to the sink, unless it is empty. -/
def deliver [EventSink σ] (t : Trail σ) (batch : List Event) : Trail σ × Except Fault Nat :=
  if batch = [] then (t, .ok 0)
  else
    match EventSink.emit t.sink batch with
    | (sink, .ok _) => ({ t with sink := sink }, .ok batch.length)
    | (sink, .error e) => ({ t with sink := sink }, .error e)

/-- Records a transition and delivers its events at once. -/
def record [EventSink σ] (t : Trail σ) (now : Instant) (record : Record) (transition : Transition) :
    Trail σ × Except Fault Nat :=
  let (t, events, _) := t.observe now record transition
  t.deliver events

end Trail

namespace Transaction

variable {σ : Type} [EventSink σ]

/-- Records a transition: the events wait if the live policy is transactional, and are delivered at
once otherwise. -/
def record (x : Transaction) (t : Trail σ) (now : Instant) (record : Record)
    (transition : Transition) : Transaction × Trail σ × Except Fault Nat :=
  let (t, events, held) := t.observe now record transition
  if held then (⟨x.pending ++ events⟩, t, .ok events.length) else (x, t.deliver events)

/-- Delivers the waiting events; they go on waiting if the sink refuses them. -/
def commit (x : Transaction) (t : Trail σ) : Transaction × Trail σ × Except Fault Nat :=
  match t.deliver x.pending with
  | (t, .ok n) => (⟨[]⟩, t, .ok n)
  | (t, .error e) => (x, t, .error e)

/-- The number of events that a rollback drops. -/
def rollback (x : Transaction) : Nat := x.pending.length

end Transaction

end ChangeAudit
