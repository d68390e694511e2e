import ChangeAudit.Json
import ChangeAudit.Text.Digits

/-!
# Numerals

`Numeral.scan` takes the longest numeral that JSON's grammar allows off the front of a text, and
`Numeral.value?` is the number it stands for: a whole number when it has neither fraction nor
exponent and fits in 64 bits, signed or not, and a double otherwise. Minus zero is a double. A
double takes its significand from the leading digits that fit in 64 unsigned bits; later digits only
move the decimal point.
-/

namespace ChangeAudit

open Text (isDigit digitValue digitsValue)

/-- A numeral as written. -/
structure Numeral where
  negative : Bool
  whole : List Char
  fraction : Option (List Char)
  exponent : Option (Bool × List Char)
  deriving DecidableEq

namespace Numeral

/-- The digits of the whole part: a single zero, or digits that do not start with zero. -/
def scanWhole : List Char → Option (List Char × List Char)
  | '0' :: rest =>
    match rest with
    | c :: _ => if isDigit c then none else some (['0'], rest)
    | [] => some (['0'], [])
  | c :: rest =>
    if isDigit c then some (c :: rest.takeWhile isDigit, rest.dropWhile isDigit) else none
  | [] => none

/-- At least one digit. -/
def scanDigits (cs : List Char) : Option (List Char × List Char) :=
  match cs.takeWhile isDigit with
  | [] => none
  | ds => some (ds, cs.dropWhile isDigit)

/-- The fraction, if a point follows. -/
def scanFraction : List Char → Option (Option (List Char) × List Char)
  | '.' :: rest => (scanDigits rest).map fun (ds, rest) => (some ds, rest)
  | cs => some (none, cs)

/-- The sign and digits of the exponent, if an `e` follows; the flag tells a negative one. -/
def scanExponent : List Char → Option (Option (Bool × List Char) × List Char)
  | c :: rest =>
    if c = 'e' ∨ c = 'E' then
      let (negative, rest) :=
        match rest with
        | '+' :: rest => (false, rest)
        | '-' :: rest => (true, rest)
        | rest => (false, rest)
      (scanDigits rest).map fun (ds, rest) => (some (negative, ds), rest)
    else some (none, c :: rest)
  | [] => some (none, [])

/-- The numeral at the front of a text, and the text after it. -/
def scan (cs : List Char) : Option (Numeral × List Char) := do
  let (negative, cs) :=
    match cs with
    | '-' :: rest => (true, rest)
    | cs => (false, cs)
  let (whole, cs) ← scanWhole cs
  let (fraction, cs) ← scanFraction cs
  let (exponent, cs) ← scanExponent cs
  some (⟨negative, whole, fraction, exponent⟩, cs)

/-- The leading digits of a decimal, as far as they fit in 64 bits, and where its point is. -/
structure Leading where
  significand : Nat
  shift : Int

/-- Adds a digit of the whole part; `full` tells that an earlier one did not fit. -/
def Leading.addWhole (state : Leading × Bool) (c : Char) : Leading × Bool :=
  let (lead, full) := state
  let next := lead.significand * 10 + digitValue c
  if full = false ∧ next < 2 ^ 64 then (⟨next, lead.shift⟩, false)
  else (⟨lead.significand, lead.shift + 1⟩, true)

/-- Adds a digit of the fraction; `full` tells that an earlier one did not fit. -/
def Leading.addFraction (state : Leading × Bool) (c : Char) : Leading × Bool :=
  let (lead, full) := state
  let next := lead.significand * 10 + digitValue c
  if full = false ∧ next < 2 ^ 64 then (⟨next, lead.shift - 1⟩, false) else (lead, true)

/-- The leading digits of a numeral, before its exponent applies. -/
def leading (n : Numeral) : Leading :=
  let whole := (n.whole.foldl Leading.addWhole (⟨0, 0⟩, false)).1
  ((n.fraction.getD []).foldl Leading.addFraction (whole, false)).1

/-- The value of the exponent. -/
def power (n : Numeral) : Int :=
  match n.exponent with
  | none => 0
  | some (negative, ds) => if negative then -(digitsValue ds : Int) else digitsValue ds

/-- The double that a numeral stands for; none beyond the greatest double. -/
def float? (n : Numeral) : Option Binary64 :=
  let lead := n.leading
  (Magnitude.ofDecimal? lead.significand (lead.shift + n.power)).map fun m => ⟨n.negative, m⟩

/-- The whole number that a numeral stands for, if it is written as one that fits in 64 bits. -/
def int? (n : Numeral) : Option Int :=
  if n.fraction.isNone ∧ n.exponent.isNone then
    let v := digitsValue n.whole
    if n.negative then if 0 < v ∧ v ≤ 2 ^ 63 then some (-(v : Int)) else none
    else if v < 2 ^ 64 then some v else none
  else none

/-- The number that a numeral stands for. -/
def value? (n : Numeral) : Option Number :=
  match n.int? with
  | some i => some (.int i)
  | none => n.float?.map .float

end Numeral

end ChangeAudit
