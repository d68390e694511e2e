import ChangeAudit.Proofs.Instant
import ChangeAudit.Proofs.Json.Decode
import ChangeAudit.Proofs.Json.Values
import ChangeAudit.Record

/-!
# Records are read back

The text of a record is read as that record, with its properties and its stamps in their order
(`Record.decode?_parse?_text`), if the values in it can be read at all (`Record.Legible`). What the
value of a stamp is read as depends on its kind, which stands beside it: an instant is written
exactly, unlike the property that it shows, and a text is read as a text whatever it looks like.
-/

namespace ChangeAudit

open Json (KeysDistinct)

/-- The values of a record are within what a reader takes: numbers are integers of 64 bits, an object
has every key once, and with the two objects around a property, or the three around a stamp, no more
arrays and objects lie in one another than a reader enters. -/
structure Record.Legible (r : Record) : Prop where
  properties : ∀ e ∈ r.properties.entries,
    e.2.KeysDistinct ∧ e.2.legible (Term.maxDepth - 2) = true
  stamps : ∀ e ∈ r.stamps.entries,
    e.2.property.KeysDistinct ∧ e.2.property.legible (Term.maxDepth - 3) = true

/-! ## Stamps -/

namespace StampValue

/-- The document of a stamp is read by its kind. -/
theorem decode?_kind_value (kind : String) (value : Json) :
    decode? (Json.object [("kind", .string kind), ("value", value)]).toTerm =
      ofKind? kind value.toTerm :=
  rfl

theorem decode?_toJson {v : StampValue} (distinct : v.property.KeysDistinct) :
    decode? v.toJson.toTerm = some v := by
  cases v with
  | timestamp t =>
    rw [toJson, decode?_kind_value, ofKind?, if_pos rfl, instant?, Json.toTerm, Term.string?,
      Option.bind_some, Instant.parse?_text, Option.map_some]
  | actor name => rfl
  | flag b => rfl
  | custom j =>
    have read : j.toTerm.json? = some j := KeysDistinct.json?_toTerm distinct
    rw [toJson, decode?_kind_value, ofKind?, if_neg (by decide), if_neg (by decide),
      if_neg (by decide), if_pos rfl, read, Option.map_some]

theorem legible_toJson {v : StampValue} {room : Nat} (legible : v.property.legible room = true) :
    v.toJson.legible (room + 1) = true := by
  cases v with
  | custom j =>
    rw [toJson, Json.legible, Json.legibleMembers_eq_all]
    exact (Bool.and_true _).trans legible
  | _ => rfl

end StampValue

/-! ## Records -/

namespace Record

theorem decode?_toJson {r : Record} (legible : r.Legible) : decode? r.toJson.toTerm = some r := by
  have text (s : String) : Term.required? Term.string? (some (Json.string s).toTerm) = some s := rfl
  have properties : Term.map? Term.json? (Json.ofMap (fun j => j) r.properties).toTerm =
      some r.properties :=
    Term.map?_ofMap fun e member => (legible.properties e member).1.json?_toTerm
  have stamps : Term.map? StampValue.decode? (Json.ofMap StampValue.toJson r.stamps).toTerm =
      some r.stamps :=
    Term.map?_ofMap fun e member => StampValue.decode?_toJson (legible.stamps e member).1
  rw [decode?, toJson, Term.fields?_struct rfl]
  simp only [List.map_cons, List.map_nil, Option.map_some, text, Term.defaulted?, properties, stamps,
    Option.bind_eq_bind, Option.bind_some]

theorem legible_toJson {r : Record} (legible : r.Legible) :
    r.toJson.legible Term.maxDepth = true := by
  have properties : (Json.ofMap (fun j => j) r.properties).legible (Term.maxDepth - 1) = true :=
    Json.legible_ofMap fun e member => (legible.properties e member).2
  have stamps : (Json.ofMap StampValue.toJson r.stamps).legible (Term.maxDepth - 1) = true :=
    Json.legible_ofMap fun e member => StampValue.legible_toJson (legible.stamps e member).2
  rw [toJson]
  refine @Json.legible_struct _ (Term.maxDepth - 1) ?_
  simp only [List.all_cons, List.all_nil, Option.all_some, properties, stamps, Json.legible,
    Bool.and_true]

/-- **Records are read back**: the text of a record is read as the same record, its properties and
its stamps in the same order, and that is written as the same text; whatever its names and texts are,
whatever its values hold, and at whatever instants it was stamped. -/
theorem decode?_parse?_text {r : Record} (legible : r.Legible) :
    (Term.parse? r.toJson.text).bind decode? = some r ∧
      ((Term.parse? r.toJson.text).bind decode?).map (fun s => s.toJson.text) =
        some r.toJson.text := by
  have read : (Term.parse? r.toJson.text).bind decode? = some r := by
    rw [Json.parse?_text_toTerm (legible_toJson legible), Option.bind_some, decode?_toJson legible]
  refine ⟨read, ?_⟩
  rw [read, Option.map_some]

/-- Arrays in one another. -/
def nested : Nat → Json
  | 0 => .null
  | depth + 1 => .array [nested depth]

/-- A record at the limits: values as deep as can be, the least and the greatest integer, a leap
second and the first year, names without a character and with any. -/
def farRecord (depth : Nat) : Record where
  entityType := "Order \"7\"\n"
  id := ""
  properties := .ofList [("", nested depth), ("größe", .object [
    ("max", .number (.int 18446744073709551615)), ("min", .number (.int (-9223372036854775808)))])]
  stamps := .ofList [("closed", .timestamp ⟨⟨2016, 12, 31, by decide⟩, 86399, 1500000000, by decide,
      by decide⟩),
    ("opened", .timestamp ⟨⟨-262143, 1, 1, by decide⟩, 30, 1, by decide, by decide⟩),
    ("größe", .actor "\u0000"), ("removed", .flag true), ("note", .custom (nested (depth - 1)))]

theorem decode?_parse?_text_far : (farRecord 125).Legible ∧
    ((Term.parse? (farRecord 125).toJson.text).bind decode? = some (farRecord 125) ∧
      ((Term.parse? (farRecord 125).toJson.text).bind decode?).map (fun s => s.toJson.text) =
        some (farRecord 125).toJson.text) := by
  have properties : ∀ e ∈ (farRecord 125).properties.entries, e.2.toTerm.json? = some e.2 ∧
      e.2.legible (Term.maxDepth - 2) = true := by decide +kernel
  have stamps : ∀ e ∈ (farRecord 125).stamps.entries,
      e.2.property.toTerm.json? = some e.2.property ∧
        e.2.property.legible (Term.maxDepth - 3) = true := by decide +kernel
  have legible : (farRecord 125).Legible :=
    ⟨fun e member => (properties e member).imp_left (Term.json?_keysDistinct _ _),
      fun e member => (stamps e member).imp_left (Term.json?_keysDistinct _ _)⟩
  exact ⟨legible, decode?_parse?_text legible⟩

/-- One level deeper a value is not read any more. -/
example : (Term.parseChars? ((Record.new "" "").set "" (nested 126)).toJson.render).bind decode? =
    none := by
  decide +kernel

end Record

end ChangeAudit
