import ChangeAudit.Event
import ChangeAudit.Json.Printer
import ChangeAudit.Policy
import ChangeAudit.Record
import ChangeAudit.Supply

/-!
# Recording transitions

A transition of an entity comes down to a list of changes, each a property with its value before and
after, where null stands for none: an insert changes every property that has a value from null, a
delete to null, and an update those whose values differ. Ignored properties do not count. A verbose
policy makes one event a change, any other one summary of the transition, and none for an update
without changes. A value is shown as text: null not at all, a masked one hidden or sealed, any other
one cut to the policy's length.
-/

namespace ChangeAudit

/-- Shown in place of a masked value that is not sealed. -/
def hiddenText : String := "**********"

/-- Seals a text for a property under a nonce. -/
abbrev Sealer := (nonce : List UInt8) → (property plain : String) → Except SealFault String

/-- What happened to an entity. -/
inductive Transition where
  | insert
  | update (previous : Snapshot)
  | delete

/-- The kind of the events of a transition. -/
def Transition.kind : Transition → EventKind
  | .insert => .insert
  | .update _ => .update
  | .delete => .delete

/-- A property with its value before and after; null stands for none. -/
structure Change where
  property : String
  old : Json
  new : Json
  deriving DecidableEq

/-- The changes of an insert. -/
def insertChanges (current : List (String × Json)) : List Change :=
  (current.filter fun p => !p.2.isNull).map fun p => ⟨p.1, .null, p.2⟩

/-- The changes of a delete. -/
def deleteChanges (current : List (String × Json)) : List Change :=
  (current.filter fun p => !p.2.isNull).map fun p => ⟨p.1, p.2, .null⟩

/-- The changes from a previous snapshot: properties of the entity whose value differs, then
properties that only the snapshot has. -/
def updateChanges (previous current : List (String × Json)) : List Change :=
  let kept := (current.map fun p => Change.mk p.1 ((Entries.get? previous p.1).getD .null) p.2).filter
    fun c => !c.old.same c.new
  let gone := (previous.filter fun p => (Entries.get? current p.1).isNone && !p.2.isNull).map
    fun p => Change.mk p.1 p.2 .null
  kept ++ gone

/-- The properties that a policy does not ignore. -/
def Policy.watched (policy : Policy) (properties : List (String × Json)) : List (String × Json) :=
  properties.filter fun p => !policy.isIgnored p.1

/-- The changes of a transition that a policy does not ignore. -/
def Transition.changes (policy : Policy) (current : Snapshot) : Transition → List Change
  | .insert => insertChanges (policy.watched current.entries)
  | .update previous =>
    updateChanges (policy.watched previous.entries) (policy.watched current.entries)
  | .delete => deleteChanges (policy.watched current.entries)

/-- The text of a value before masking and cutting; none for null. -/
def plainText : Json → Option String
  | .null => none
  | .string s => some s
  | other => some other.text

/-- A text cut to a number of characters, if a limit is given. -/
def cutText (limit : Option Nat) (s : String) : String :=
  match limit with
  | some n => if n < s.length then String.ofList (s.toList.take n) else s
  | none => s

/-- A masked text: sealed under the next nonce, or hidden if there is no sealer or it fails. -/
def maskText (sealer : Option Sealer) (property plain : String) (supply : Supply) :
    String × Supply :=
  match sealer with
  | none => (hiddenText, supply)
  | some sealWith =>
    let (nonce, supply) := supply.nonce
    match sealWith nonce property plain with
    | .ok sealed => (sealed, supply)
    | .error _ => (hiddenText, supply)

/-- The shown text of a value of a property. -/
def showValue (policy : Policy) (sealer : Option Sealer) (property : String) (value : Json)
    (supply : Supply) : Option String × Supply :=
  match plainText value with
  | none => (none, supply)
  | some plain =>
    if policy.isMasked property then
      let (shown, supply) := maskText sealer property plain supply
      (some shown, supply)
    else (some (cutText policy.truncateLength plain), supply)

/-- What the events of one transition have in common. -/
structure Occasion where
  kind : EventKind
  entityType : String
  entityId : String
  actor : Option String
  now : Instant

/-- The event of a property, or the summary. -/
def Occasion.event (o : Occasion) (id : String) (property old new : Option String) : Event :=
  ⟨id, o.entityType, o.entityId, property, old, new, o.kind, o.actor, o.now⟩

/-- One event a change, in order. -/
def changeEvents (policy : Policy) (sealer : Option Sealer) (o : Occasion) :
    List Change → Supply → List Event × Supply
  | [], supply => ([], supply)
  | c :: cs, supply =>
    let (old, supply) := showValue policy sealer c.property c.old supply
    let (new, supply) := showValue policy sealer c.property c.new supply
    let (id, supply) := supply.eventId
    let (events, supply) := changeEvents policy sealer o cs supply
    (o.event id (some c.property) old new :: events, supply)

/-- The summary of a transition. -/
def summaryEvents (o : Occasion) (supply : Supply) : List Event × Supply :=
  let (id, supply) := supply.eventId
  ([o.event id none none none], supply)

/-- The events of a transition of a record. -/
def Transition.events (transition : Transition) (policy : Policy) (sealer : Option Sealer)
    (actor : Option String) (now : Instant) (record : Record) (supply : Supply) :
    List Event × Supply :=
  let o : Occasion := ⟨transition.kind, record.entityType, record.id, actor, now⟩
  let changes := transition.changes policy record.snapshot
  if policy.verbose then changeEvents policy sealer o changes supply
  else
    match transition, changes with
    | .update _, [] => ([], supply)
    | _, _ => summaryEvents o supply

end ChangeAudit
