import ChangeAudit.Binary64.Shortest
import ChangeAudit.Json
import ChangeAudit.Text.Digits

/-!
# Writing JSON

The compact form: no blanks, members in their order. A string escapes the quote, the backslash and
the characters below U+0020, five of them by a letter and the rest by a code in lower-case
hexadecimal. A double is written with the fewest digits that read back, positionally when its first
digit stands between `10 ^ -5` and `10 ^ 15`, with at least one digit after the point, and otherwise
in scientific form with an explicit sign.
-/

namespace ChangeAudit

open Text (hexDigit)

namespace Binary64

/-- The least and greatest exponent of the first digit that is written positionally. -/
def positional (lead : Int) : Bool := -5 ≤ lead && lead ≤ 15

/-- Writes digits whose first one has the weight `10 ^ lead`. -/
def renderDigits (ds : List Char) (lead : Int) : List Char :=
  if positional lead then
    if 0 ≤ lead then
      let n := lead.toNat + 1
      let whole := ds.take n ++ List.replicate (n - ds.length) '0'
      match ds.drop n with
      | [] => whole ++ ['.', '0']
      | rest => whole ++ '.' :: rest
    else '0' :: '.' :: List.replicate ((-lead).toNat - 1) '0' ++ ds
  else
    let mark := if 0 ≤ lead then ['e', '+'] else ['e', '-']
    let front :=
      match ds with
      | [] => []
      | [d] => [d]
      | d :: rest => d :: '.' :: rest
    front ++ mark ++ Nat.toDigits 10 lead.natAbs

/-- The shortest text that reads back as the double. -/
def render (x : Binary64) : List Char :=
  let d := x.magnitude.shortest
  let ds := Nat.toDigits 10 d.digits
  (if x.negative then ['-'] else []) ++ renderDigits ds (d.exponent + ds.length - 1)

end Binary64

/-- The digits of a whole number, a minus sign in front of a negative one. -/
def renderInt (i : Int) : List Char :=
  if i < 0 then '-' :: Nat.toDigits 10 i.natAbs else Nat.toDigits 10 i.natAbs

/-- The text of a number. -/
def Number.render : Number → List Char
  | .int i => renderInt i
  | .float x => x.render

namespace Json

/-- A character inside a quoted string. -/
def escape (c : Char) : List Char :=
  if c = '"' then ['\\', '"']
  else if c = '\\' then ['\\', '\\']
  else if c = '\n' then ['\\', 'n']
  else if c = '\r' then ['\\', 'r']
  else if c = '\t' then ['\\', 't']
  else if c = '\x08' then ['\\', 'b']
  else if c = '\x0c' then ['\\', 'f']
  else if c.toNat < 32 then
    ['\\', 'u', '0', '0', hexDigit (c.toNat / 16), hexDigit (c.toNat % 16)]
  else [c]

/-- A quoted string. -/
def quote (cs : List Char) : List Char :=
  '"' :: (cs.flatMap escape ++ ['"'])

mutual

/-- The characters of a value. -/
def render : Json → List Char
  | .null => ['n', 'u', 'l', 'l']
  | .bool true => ['t', 'r', 'u', 'e']
  | .bool false => ['f', 'a', 'l', 's', 'e']
  | .number n => n.render
  | .string s => quote s.toList
  | .array [] => ['[', ']']
  | .array (x :: xs) => '[' :: (render x ++ renderItems xs)
  | .object [] => ['{', '}']
  | .object ((key, value) :: ms) =>
    '{' :: (quote key.toList ++ ':' :: (render value ++ renderMembers ms))

/-- The items after the first, and the closing bracket. -/
def renderItems : List Json → List Char
  | [] => [']']
  | x :: xs => ',' :: (render x ++ renderItems xs)

/-- The members after the first, and the closing brace. -/
def renderMembers : List (String × Json) → List Char
  | [] => ['}']
  | (key, value) :: ms =>
    ',' :: (quote key.toList ++ ':' :: (render value ++ renderMembers ms))

end

/-- The text of a value. -/
def text (j : Json) : String := String.ofList j.render

end Json

end ChangeAudit
