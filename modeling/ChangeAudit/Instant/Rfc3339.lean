import ChangeAudit.Instant
import ChangeAudit.Text.Blank
import ChangeAudit.Text.Digits

/-!
# Written instants

`Instant.render` writes an instant in universal time with the fewest of 0, 3, 6 or 9 digits of
fraction that are exact; `Instant.renderMillis` always writes three, cut off. A year outside 0..9999
carries a sign. `Instant.parse?` reads these forms and more: blanks around the numbers and at both
ends, one digit for month to second, any number of digits of fraction (those after the ninth are
dropped), `t` or a blank for `T`, `z` or `UTC` for `Z`, and an offset from universal time, which is
subtracted.
-/

namespace ChangeAudit

open Text (isDigit digitsValue fixedDigits isBlank skipBlank)

/-- The year, with a sign outside 0..9999. -/
def renderYear (year : Int) : List Char :=
  if 0 ≤ year ∧ year ≤ 9999 then fixedDigits 4 year.toNat
  else (if year < 0 then '-' else '+') :: fixedDigits 4 year.natAbs

namespace Instant

/-- The date and the time up to the second. -/
def renderWhole (t : Instant) : List Char :=
  renderYear t.date.year ++ '-' :: (fixedDigits 2 t.date.month ++ '-' :: (fixedDigits 2 t.date.day
    ++ 'T' :: (fixedDigits 2 (t.second / 3600) ++ ':' :: (fixedDigits 2 (t.second / 60 % 60)
    ++ ':' :: fixedDigits 2 t.writtenSecond))))

/-- The fraction of a second with the fewest of 0, 3, 6 or 9 digits. -/
def renderFraction (nanos : Nat) : List Char :=
  if nanos = 0 then []
  else if nanos % 1000000 = 0 then '.' :: fixedDigits 3 (nanos / 1000000)
  else if nanos % 1000 = 0 then '.' :: fixedDigits 6 (nanos / 1000)
  else '.' :: fixedDigits 9 nanos

/-- The exact form. -/
def render (t : Instant) : List Char :=
  t.renderWhole ++ (renderFraction t.fraction ++ ['Z'])

/-- The form with three digits of fraction. -/
def renderMillis (t : Instant) : List Char :=
  t.renderWhole ++ ('.' :: fixedDigits 3 (t.fraction / 1000000) ++ ['Z'])

/-- The exact form as a text. -/
def text (t : Instant) : String := String.ofList t.render

/-- The form with three digits of fraction as a text. -/
def millisText (t : Instant) : String := String.ofList t.renderMillis

/-- A run of at least one digit, cut after `width` digits when a width is given. -/
def scanNumber (width : Option Nat) (cs : List Char) : Option (Nat × List Char) :=
  let ds := cs.takeWhile isDigit
  let ds := match width with
    | some w => ds.take w
    | none => ds
  if ds = [] then none else some (digitsValue ds, cs.drop ds.length)

/-- A year: up to four digits, or a sign and any number of them. -/
def scanYear (cs : List Char) : Option (Int × List Char) :=
  match skipBlank cs with
  | '-' :: rest => (scanNumber none rest).map fun (n, rest) => (-(n : Int), rest)
  | '+' :: rest => (scanNumber none rest).map fun (n, rest) => ((n : Int), rest)
  | cs => (scanNumber (some 4) cs).map fun (n, rest) => ((n : Int), rest)

/-- One or two digits, blanks in front of them allowed. -/
def scanTwo (cs : List Char) : Option (Nat × List Char) := scanNumber (some 2) (skipBlank cs)

/-- A mark, blanks in front of it allowed. -/
def scanMark (mark : Char) (cs : List Char) : Option (List Char) :=
  match skipBlank cs with
  | c :: rest => if c = mark then some rest else none
  | [] => none

/-- The nanoseconds of a fraction, if a point follows at once. -/
def scanFraction : List Char → Option (Nat × List Char)
  | '.' :: rest =>
    let ds := rest.takeWhile isDigit
    if ds = [] then none
    else
      let kept := ds.take 9
      some (digitsValue kept * 10 ^ (9 - kept.length), rest.dropWhile isDigit)
  | cs => some (0, cs)

/-- A digit in a range, as its value. -/
def digitBelow? (c : Char) (bound : Nat) : Option Nat :=
  if isDigit c ∧ c.toNat - 48 < bound then some (c.toNat - 48) else none

/-- The hours and minutes of an offset, in seconds; colons and blanks may stand between them. -/
def scanOffset : List Char → Option (Nat × List Char)
  | h :: h' :: rest => do
    let hours := 10 * (← digitBelow? h 10) + (← digitBelow? h' 10)
    match rest.dropWhile fun c => c = ':' || isBlank c with
    | m :: m' :: rest =>
      let minutes := 10 * (← digitBelow? m 6) + (← digitBelow? m' 10)
      if hours < 24 then some (hours * 3600 + minutes * 60, rest) else none
    | _ => none
  | _ => none

/-- The offset from universal time in seconds. -/
def scanZone : List Char → Option (Int × List Char)
  | 'Z' :: rest | 'z' :: rest => some (0, rest)
  | '+' :: rest => (scanOffset rest).map fun (n, rest) => ((n : Int), rest)
  | '-' :: rest | '\u2212' :: rest => (scanOffset rest).map fun (n, rest) => (-(n : Int), rest)
  | u :: t :: c :: rest =>
    if (u = 'U' ∨ u = 'u') ∧ (t = 'T' ∨ t = 't') ∧ (c = 'C' ∨ c = 'c') then some (0, rest) else none
  | _ => none

/-- The instant of a local date and time at an offset from universal time. -/
def ofLocal? (date : Date) (second : Nat) (nanos : Nat) (offset : Int) : Option Instant :=
  let universal := (second : Int) - offset
  if universal < 0 then do of? (← date.previous?) (universal + 86400).toNat nanos
  else if universal < 86400 then of? date universal.toNat nanos
  else do of? (← date.next?) (universal - 86400).toNat nanos

/-- The second of the day that an hour, minute and second name, and the nanoseconds that a leap
second adds. -/
def timeOfDay? (hour minute second : Nat) : Option (Nat × Nat) :=
  if hour < 24 ∧ minute < 60 then
    if second < 60 then some (hour * 3600 + minute * 60 + second, 0)
    else if second = 60 then some (hour * 3600 + minute * 60 + 59, 1000000000)
    else none
  else none

/-- The instant that the characters write. -/
def parseChars? (cs : List Char) : Option Instant := do
  let (year, cs) ← scanYear cs
  let (month, cs) ← scanTwo (← scanMark '-' cs)
  let (day, cs) ← scanTwo (← scanMark '-' cs)
  let cs ← match cs with
    | 'T' :: rest | 't' :: rest | ' ' :: rest => some rest
    | _ => none
  let (hour, cs) ← scanTwo cs
  let (minute, cs) ← scanTwo (← scanMark ':' cs)
  let (second, cs) ← scanTwo (← scanMark ':' cs)
  let (nanos, cs) ← scanFraction cs
  let (offset, cs) ← scanZone (skipBlank cs)
  if skipBlank cs = [] then
    let date ← Date.of? year month day
    let (second, leap) ← timeOfDay? hour minute second
    ofLocal? date second (leap + nanos) offset
  else none

/-- The instant that a text writes. -/
def parse? (text : String) : Option Instant := parseChars? text.toList

end Instant

end ChangeAudit
