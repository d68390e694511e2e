import ChangeAudit.Json.Term

/-!
# Reading typed values

A decoder takes a term and answers a value or nothing. A struct is an object, or an array of its
fields in order: a field may be given once, under any of its spellings; unknown members are skipped
whatever they hold; an array may end early but not go on. A field is then required, optional (null
and absent are the same) or defaulted (absent only). A name out of a fixed set is a string, or an
object whose only member has that name and the value null.
-/

namespace ChangeAudit.Term

/-- The value of an optional field: null stands for absent. -/
def nullable? {α : Type} (read : Term → Option α) : Term → Option (Option α)
  | .null => some none
  | t => (read t).map some

/-- A string. -/
def string? : Term → Option String
  | .string s => some s
  | _ => none

/-- A truth value. -/
def bool? : Term → Option Bool
  | .bool b => some b
  | _ => none

/-- A whole number from `0` to `2 ^ 64 - 1`. -/
def natural? : Term → Option Nat
  | .number (.int i) => if 0 ≤ i ∧ i < 2 ^ 64 then some i.toNat else none
  | _ => none

/-- A name out of a fixed set. -/
def name? : Term → Option String
  | .string s => some s
  | .object [(some s, .null)] => some s
  | _ => none

/-- The items of an array, each read. -/
def list? {α : Type} (read : Term → Option α) : Term → Option (List α)
  | .array items => items.mapM read
  | _ => none

/-- A member with a readable key and a value that is read. -/
def member? {α : Type} (read : Term → Option α) : Option String × Term → Option (String × α)
  | (some key, t) => (read t).map fun v => (key, v)
  | (none, _) => none

/-- The members of an object, each value read; the last of a repeated key stands. -/
def map? {α : Type} (read : Term → Option α) : Term → Option (OrderedMap String α)
  | .object members => (members.mapM (member? read)).map OrderedMap.ofList
  | _ => none

/-- What a list of members gives for one field: nothing, one term, or a failure if it is given
twice. -/
def given? (members : List (Option String × Term)) (spellings : List String) :
    Option (Option Term) :=
  match members.filter fun m => m.1.any (spellings.contains ·) with
  | [] => some none
  | [(_, t)] => some (some t)
  | _ => none

/-- The terms that a struct gives for its fields, each field listed with its spellings. -/
def fields? (names : List (List String)) : Term → Option (List (Option Term))
  | .object members =>
    if members.all fun m => m.1.isSome then names.mapM (given? members) else none
  | .array items =>
    if items.length ≤ names.length then
      some (items.map some ++ List.replicate (names.length - items.length) none)
    else none
  | _ => none

/-- A field that has to be given. -/
def required? {α : Type} (read : Term → Option α) : Option Term → Option α
  | some t => read t
  | none => none

/-- A field that may be absent or null. -/
def optional? {α : Type} (read : Term → Option α) : Option Term → Option (Option α)
  | some t => nullable? read t
  | none => some none

/-- A field with a value of its own when absent. -/
def defaulted? {α : Type} (read : Term → Option α) (default : α) : Option Term → Option α
  | some t => read t
  | none => some default

end ChangeAudit.Term
