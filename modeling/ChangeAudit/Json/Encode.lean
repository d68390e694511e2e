import ChangeAudit.Json

/-!
# Building JSON from typed values

`Json.struct` leaves out the fields that have no value; the rest keep their order.
-/

namespace ChangeAudit.Json

/-- An object of the fields that have a value. -/
def struct (fields : List (String × Option Json)) : Json :=
  .object (fields.filterMap fun f => f.2.map fun v => (f.1, v))

/-- An object of the entries of a map. -/
def ofMap {α : Type} (write : α → Json) (m : OrderedMap String α) : Json :=
  .object (m.entries.map fun e => (e.1, write e.2))

/-- An array of strings. -/
def strings (xs : List String) : Json := .array (xs.map .string)

/-- A natural number. -/
def nat (n : Nat) : Json := .number (.int n)

end ChangeAudit.Json
