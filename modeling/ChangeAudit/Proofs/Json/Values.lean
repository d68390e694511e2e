import ChangeAudit.Proofs.Json.Distinct
import ChangeAudit.Proofs.Json.RoundTrip

/-!
# Values are read back

Reading the members of an object one by one loses a repeated key, so a term says the value it was
made from if no object in that has a key twice (`Json.KeysDistinct.json?_toTerm`). With distinct keys
the text of a legible value is read as that value (`Json.parse?_text`).
-/

namespace ChangeAudit

namespace Json

open Term (json? jsonItems? jsonMembers?)

theorem jsonItems?_toTerms {xs : List Json} (each : ∀ x ∈ xs, x.toTerm.json? = some x) :
    jsonItems? (toTerms xs) = some xs := by
  induction xs with
  | nil => rfl
  | cons x xs ih =>
    obtain ⟨first, later⟩ := List.forall_mem_cons.1 each
    rw [toTerms, jsonItems?, first, ih later]

theorem jsonMembers?_toMembers {ms : List (String × Json)}
    (each : ∀ m ∈ ms, m.2.toTerm.json? = some m.2) : jsonMembers? (toMembers ms) = some ms := by
  induction ms with
  | nil => rfl
  | cons m ms ih =>
    obtain ⟨key, value⟩ := m
    obtain ⟨first, later⟩ := List.forall_mem_cons.1 each
    simp only [toMembers, jsonMembers?, first, ih later]

/-- The term of a value is read as that value. -/
theorem KeysDistinct.json?_toTerm {j : Json} (distinct : j.KeysDistinct) :
    j.toTerm.json? = some j := by
  induction distinct with
  | null => rfl
  | bool value => rfl
  | number value => rfl
  | string text => rfl
  | array each ih => rw [toTerm, json?, jsonItems?_toTerms ih]
  | object distinct each ih =>
    rw [toTerm, json?, jsonMembers?_toMembers ih]
    simp only [Entries.insertAll_nil distinct]

/-- The text of a legible value says that value. -/
theorem parse?_text_toTerm {j : Json} (h : j.legible Term.maxDepth = true) :
    Term.parse? j.text = some j.toTerm := by
  rw [Term.parse?, text, String.toList_ofList, Term.parseChars?_render h]

/-- The text of a legible value with distinct keys is read as that value. -/
theorem parse?_text {j : Json} (h : j.legible Term.maxDepth = true) (distinct : j.KeysDistinct) :
    parse? j.text = some j := by
  rw [parse?, parse?_text_toTerm h, Option.bind_some, distinct.json?_toTerm]

end Json

end ChangeAudit
