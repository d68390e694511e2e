import ChangeAudit.Binary64
import ChangeAudit.OrderedMap

/-!
# JSON values

Numbers are whole or double, never both: `1` and `1.0` differ. Objects keep the order of their
members. `Json.same` is the equality that decides whether a value changed: it ignores the order of
members and the sign of zero. `Json.layer` puts one document over another, member by member.
-/

namespace ChangeAudit

/-- A JSON number. -/
inductive Number where
  | int (value : Int)
  | float (value : Binary64)
  deriving DecidableEq

/-- Equality of value; a whole number never equals a double. -/
def Number.same : Number → Number → Bool
  | .int a, .int b => a = b
  | .float a, .float b => a.same b
  | _, _ => false

/-- A JSON value. -/
inductive Json where
  | null
  | bool (value : Bool)
  | number (value : Number)
  | string (text : String)
  | array (items : List Json)
  | object (members : List (String × Json))
  deriving Inhabited

namespace Json

mutual

/-- Decides equality of values, order of members included. -/
def decEq : (a b : Json) → Decidable (a = b)
  | .null, .null => .isTrue rfl
  | .bool a, .bool b => if h : a = b then .isTrue (h ▸ rfl) else .isFalse (by simpa using h)
  | .number a, .number b => if h : a = b then .isTrue (h ▸ rfl) else .isFalse (by simpa using h)
  | .string a, .string b => if h : a = b then .isTrue (h ▸ rfl) else .isFalse (by simpa using h)
  | .array a, .array b =>
    match decEqItems a b with
    | .isTrue h => .isTrue (h ▸ rfl)
    | .isFalse h => .isFalse (by simpa using h)
  | .object a, .object b =>
    match decEqMembers a b with
    | .isTrue h => .isTrue (h ▸ rfl)
    | .isFalse h => .isFalse (by simpa using h)
  | .null, .bool _ | .null, .number _ | .null, .string _ | .null, .array _ | .null, .object _
  | .bool _, .null | .bool _, .number _ | .bool _, .string _ | .bool _, .array _
  | .bool _, .object _
  | .number _, .null | .number _, .bool _ | .number _, .string _ | .number _, .array _
  | .number _, .object _
  | .string _, .null | .string _, .bool _ | .string _, .number _ | .string _, .array _
  | .string _, .object _
  | .array _, .null | .array _, .bool _ | .array _, .number _ | .array _, .string _
  | .array _, .object _
  | .object _, .null | .object _, .bool _ | .object _, .number _ | .object _, .string _
  | .object _, .array _ => .isFalse (by simp)

/-- Decides equality of lists of values. -/
def decEqItems : (a b : List Json) → Decidable (a = b)
  | [], [] => .isTrue rfl
  | [], _ :: _ | _ :: _, [] => .isFalse (by simp)
  | x :: xs, y :: ys =>
    match decEq x y, decEqItems xs ys with
    | .isTrue h, .isTrue h' => .isTrue (h ▸ h' ▸ rfl)
    | .isFalse h, _ => .isFalse (by simp [h])
    | _, .isFalse h => .isFalse (by simp [h])

/-- Decides equality of lists of members. -/
def decEqMembers : (a b : List (String × Json)) → Decidable (a = b)
  | [], [] => .isTrue rfl
  | [], _ :: _ | _ :: _, [] => .isFalse (by simp)
  | (k, x) :: xs, (l, y) :: ys =>
    if hk : k = l then
      match decEq x y, decEqMembers xs ys with
      | .isTrue h, .isTrue h' => .isTrue (hk ▸ h ▸ h' ▸ rfl)
      | .isFalse h, _ => .isFalse (by simp [h])
      | _, .isFalse h => .isFalse (by simp [h])
    else .isFalse (by simp [hk])

end

instance : DecidableEq Json := decEq

/-- Whether the value is null. -/
def isNull : Json → Bool
  | .null => true
  | _ => false

/-- A member of an object; nothing for any other value. -/
def get? : Json → String → Option Json
  | .object members, key => Entries.get? members key
  | _, _ => none

/-- The value at a path of member names. -/
def at? : Json → List String → Option Json
  | j, [] => some j
  | j, key :: path =>
    match j.get? key with
    | some next => next.at? path
    | none => none

mutual

/-- Equality of value: members in any order, the two zeros equal. -/
def same : Json → Json → Bool
  | .null, .null => true
  | .bool a, .bool b => a = b
  | .number a, .number b => a.same b
  | .string a, .string b => a = b
  | .array a, .array b => sameItems a b
  | .object a, .object b => a.length = b.length && sameMembers a b
  | _, _ => false

/-- Equality item by item. -/
def sameItems : List Json → List Json → Bool
  | [], [] => true
  | x :: xs, y :: ys => same x y && sameItems xs ys
  | _, _ => false

/-- Whether each member has an equal one in the other object. -/
def sameMembers : List (String × Json) → List (String × Json) → Bool
  | [], _ => true
  | (key, x) :: members, others =>
    (match Entries.get? others key with
      | some y => same x y
      | none => false) && sameMembers members others

end

mutual

/-- The document `upper` laid over the document `lower`: two objects are merged member by member, in
`lower`'s order followed by `upper`'s other members; anything else in `upper` replaces what is
below. -/
def layer (lower upper : Json) : Json :=
  match lower, upper with
  | .object below, .object above =>
    .object (layerMembers below above ++ above.filter fun m => (Entries.get? below m.1).isNone)
  | _, above => above

/-- The members of the lower object, each under what the upper one has for it. -/
def layerMembers (below above : List (String × Json)) : List (String × Json) :=
  match below with
  | [] => []
  | (key, value) :: rest =>
    (key, match Entries.get? above key with
      | some upper => layer value upper
      | none => value) :: layerMembers rest above

end

end Json

end ChangeAudit
