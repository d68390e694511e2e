import ChangeAudit.Event
import ChangeAudit.Proofs.Instant
import ChangeAudit.Proofs.Json.Fields

/-!
# Events are read back

The document of an event is read as that event (`Event.decode?_toJson`), and so is its text
(`Event.decode?_parseChars?_render`): whatever its strings are, whichever of its fields are absent,
and at any instant.
-/

namespace ChangeAudit

theorem EventKind.decode?_name (k : EventKind) :
    decode? (Json.string k.name).toTerm = some k := by
  cases k <;> decide

namespace Event

theorem decode?_toJson (e : Event) : decode? e.toJson.toTerm = some e := by
  have timestamp : Term.required? (fun t => t.string?.bind Instant.parse?)
      (some (Json.string e.timestamp.text).toTerm) = some e.timestamp :=
    Instant.parse?_text e.timestamp
  have kind : Term.required? EventKind.decode? (some (Json.string e.kind.name).toTerm) =
      some e.kind := EventKind.decode?_name e.kind
  have text (s : String) : Term.required? Term.string? (some (Json.string s).toTerm) = some s := rfl
  rw [decode?, toJson, Term.fields?_struct rfl]
  simp only [List.map_cons, List.map_nil, Option.map_some, Term.optional?_string, text, kind,
    timestamp, Option.bind_eq_bind, Option.bind_some]

theorem legible_toJson (e : Event) : e.toJson.legible Term.maxDepth = true := by
  refine Json.legible_struct ?_
  simp only [List.all_cons, List.all_nil, Option.all_some, Json.legible,
    Json.legible_optional_string, Bool.and_true]

/-- The text of an event writes that event. -/
theorem decode?_parseChars?_render (e : Event) :
    (Term.parseChars? e.toJson.render).bind decode? = some e := by
  rw [Term.parseChars?_render e.legible_toJson, Option.bind_some, decode?_toJson]

end Event

end ChangeAudit
