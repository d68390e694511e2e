import ChangeAudit.Proofs.OrderedMap
import ChangeAudit.Record

/-!
# What a record shows

A record is built and changed by writes to its properties and to its stamp fields. Whatever the
order of the writes, it shows each name once: the ordinary properties where they first got a value,
then the stamp fields that are no ordinary properties where they were first set; a name that is
stamped shows its last stamp, any other its last value (`Record.shows_written`). So a write shows at
its own name alone, also where it makes a stamp field an ordinary property and so moves it.
-/

namespace ChangeAudit

/-- What a stamp is shown as: a timestamp as its text to the millisecond, an actor as the name, a flag
as the truth value, and a custom value as it is. -/
inductive StampValue.ShownAs : StampValue → Json → Prop where
  | timestamp (instant : Instant) : ShownAs (.timestamp instant) (.string instant.millisText)
  | actor (name : String) : ShownAs (.actor name) (.string name)
  | flag (value : Bool) : ShownAs (.flag value) (.bool value)
  | custom (value : Json) : ShownAs (.custom value) value

theorem StampValue.shownAs_property (stamp : StampValue) : stamp.ShownAs stamp.property := by
  cases stamp <;> constructor

namespace Record

/-- A call that writes to a record: it gives a value to a property, while the record is built or
later, or to a stamp field. -/
inductive Write where
  | set (name : String) (value : Json)
  | setStamp (field : String) (value : StampValue)

namespace Write

/-- The name that is written. -/
def name : Write → String
  | .set name _ => name
  | .setStamp field _ => field

/-- The record after the write. -/
def apply (r : Record) : Write → Record
  | .set name value => r.set name value
  | .setStamp field value => r.setStamp field value

/-- The property that is written. -/
def property? : Write → Option (String × Json)
  | .set name value => some (name, value)
  | .setStamp _ _ => none

/-- The stamp that is written. -/
def stamp? : Write → Option (String × StampValue)
  | .set _ _ => none
  | .setStamp field value => some (field, value)

end Write

/-- The record after writes, one after the other. -/
def written (r : Record) (ws : List Write) : Record := ws.foldl Write.apply r

/-- The ordinary properties, each where it first got a value. -/
def propertyNames (r : Record) (ws : List Write) : List String :=
  (r.properties.keys ++ Entries.keys (ws.filterMap Write.property?)).eraseDups

/-- The stamp fields, each where it was first set. -/
def stampNames (r : Record) (ws : List Write) : List String :=
  (r.stamps.keys ++ Entries.keys (ws.filterMap Write.stamp?)).eraseDups

/-- The last value that a name got as an ordinary property. -/
def lastValue? (r : Record) (ws : List Write) (name : String) : Option Json :=
  (Entries.get? (ws.filterMap Write.property?).reverse name).or (r.properties.get? name)

/-- The last stamp that a name got. -/
def lastStamp? (r : Record) (ws : List Write) (name : String) : Option StampValue :=
  (Entries.get? (ws.filterMap Write.stamp?).reverse name).or (r.stamps.get? name)

/-- What a record shows after writes, and what of it one more write leaves as it is. -/
structure Shows (r : Record) (ws : List Write) (shown : Snapshot) : Prop where
  names : shown.keys =
    r.propertyNames ws ++ (r.stampNames ws).filter fun name => name ∉ r.propertyNames ws
  once : shown.keys.Nodup
  stamped : ∀ name stamp, r.lastStamp? ws name = some stamp →
    ∃ value, stamp.ShownAs value ∧ shown.get? name = some value
  unstamped : ∀ name, r.lastStamp? ws name = none → shown.get? name = r.lastValue? ws name
  others : ∀ w : Write, (w.apply (r.written ws)).snapshot.erase w.name = shown.erase w.name

/-! ## What a record shows -/

theorem keys_snapshot (r : Record) :
    r.snapshot.keys =
      r.properties.keys ++ r.stamps.keys.filter fun name => name ∉ r.properties.keys := by
  have fields : Entries.keys (r.stamps.entries.map fun e => (e.1, e.2.property)) = r.stamps.keys :=
    Entries.keys_map _ _
  have distinct : (Entries.keys (r.stamps.entries.map fun e => (e.1, e.2.property))).Nodup := by
    rw [fields]
    exact r.stamps.nodup
  rw [snapshot, OrderedMap.keys, OrderedMap.insertAll, Entries.keys_insertAll _ distinct, fields]
  rfl

theorem get?_snapshot (r : Record) (name : String) :
    r.snapshot.get? name = ((r.stamps.get? name).map StampValue.property).or
      (r.properties.get? name) := by
  have distinct : (Entries.keys (r.stamps.entries.map fun e => (e.1, e.2.property))).Nodup := by
    rw [Entries.keys_map]
    exact r.stamps.nodup
  rw [snapshot, OrderedMap.get?, OrderedMap.insertAll, Entries.get?_insertAll _ distinct,
    Entries.get?_map]
  rfl

/-- Without a name, a record shows what it does without the property and the stamp of that name. -/
theorem erase_snapshot (r : Record) (name : String) :
    (r.snapshot.erase name).entries =
      Entries.insertAll (r.properties.erase name).entries
        ((r.stamps.erase name).entries.map fun e => (e.1, e.2.property)) := by
  have kept := Entries.filter_insertAll (fun key => decide (key ≠ name)) r.properties.entries
    (r.stamps.entries.map fun e => (e.1, e.2.property))
  rw [List.filter_map] at kept
  exact kept

/-- A write shows at its own name alone. -/
theorem erase_snapshot_apply (r : Record) (w : Write) :
    (w.apply r).snapshot.erase w.name = r.snapshot.erase w.name := by
  apply OrderedMap.ext
  rw [erase_snapshot, erase_snapshot]
  cases w with
  | set name value =>
    have properties : (r.set name value).properties.erase name = r.properties.erase name :=
      OrderedMap.erase_insert r.properties name value
    rw [Write.apply, Write.name, properties]
    rfl
  | setStamp field value =>
    have stamps : (r.setStamp field value).stamps.erase field = r.stamps.erase field :=
      OrderedMap.erase_insert r.stamps field value
    rw [Write.apply, Write.name, stamps]
    rfl

/-! ## After writes -/

/-- Writes to properties and writes to stamps do not meet. -/
theorem written_eq (r : Record) (ws : List Write) :
    r.written ws =
      { r with
        properties := r.properties.insertAll (ws.filterMap Write.property?)
        stamps := r.stamps.insertAll (ws.filterMap Write.stamp?) } := by
  induction ws generalizing r with
  | nil => rfl
  | cons w ws ih =>
    rw [written, List.foldl_cons, ← written, ih]
    cases w <;> rfl

theorem keys_properties_written (r : Record) (ws : List Write) :
    (r.written ws).properties.keys = r.propertyNames ws := by
  rw [written_eq]
  exact Entries.keys_insertAll_eraseDups r.properties.nodup _

theorem keys_stamps_written (r : Record) (ws : List Write) :
    (r.written ws).stamps.keys = r.stampNames ws := by
  rw [written_eq]
  exact Entries.keys_insertAll_eraseDups r.stamps.nodup _

theorem get?_properties_written (r : Record) (ws : List Write) (name : String) :
    (r.written ws).properties.get? name = r.lastValue? ws name := by
  rw [written_eq]
  exact Entries.get?_insertAll_reverse r.properties.entries _ name

theorem get?_stamps_written (r : Record) (ws : List Write) (name : String) :
    (r.written ws).stamps.get? name = r.lastStamp? ws name := by
  rw [written_eq]
  exact Entries.get?_insertAll_reverse r.stamps.entries _ name

/-- **What a record shows after any writes**: every name once, first the ordinary properties where
they first got a value, then the other stamp fields where they were first set; the last stamp of a
name that was stamped stands in the place of its value, and any other name has its last value. One
more write leaves all other names as they are, with their values and in their order. -/
theorem shows_written (r : Record) (ws : List Write) : r.Shows ws (r.written ws).snapshot where
  names := by rw [keys_snapshot, keys_properties_written, keys_stamps_written]
  once := (r.written ws).snapshot.nodup
  stamped name stamp last := by
    rw [get?_snapshot, get?_stamps_written, last]
    exact ⟨stamp.property, stamp.shownAs_property, rfl⟩
  unstamped name never := by
    rw [get?_snapshot, get?_properties_written, get?_stamps_written, never]
    rfl
  others := erase_snapshot_apply (r.written ws)

/-- A stamp covers a property in its place, and a stamp field that becomes a property moves up. -/
example : ((Record.new "Order" "1").written
    [.setStamp "editor" (.actor "ann"), .setStamp "removed" (.flag false),
      .set "status" (.string "new"), .set "removed" .null, .set "total" (.nat 7),
      .setStamp "status" (.custom (.string "sealed"))]).snapshot.entries =
    [("status", .string "sealed"), ("removed", .bool false), ("total", .nat 7),
      ("editor", .string "ann")] :=
  rfl

end Record

end ChangeAudit
