/-!
# Dates and instants

A `Date` is a day of the proleptic Gregorian calendar between the years -262143 and 262142. An
`Instant` is a moment in universal time: a date, a second of that day and a fraction in nanoseconds.
A fraction of a whole second or more lies in a leap second, which may follow the last second of any
minute and is written as second 60. Moving an instant by whole seconds leaves a leap second first.
-/

namespace ChangeAudit

/-- Whether a year has a 29th of February. -/
def isLeapYear (year : Int) : Bool :=
  year % 4 == 0 && (year % 100 != 0 || year % 400 == 0)

/-- The number of days of a month, `1` to `12`; no other month has any. -/
def daysInMonth (year : Int) (month : Nat) : Nat :=
  match month with
  | 1 | 3 | 5 | 7 | 8 | 10 | 12 => 31
  | 4 | 6 | 9 | 11 => 30
  | 2 => if isLeapYear year then 29 else 28
  | _ => 0

/-- Whether a year, month and day name a day in range. -/
def Date.IsValid (year : Int) (month day : Nat) : Prop :=
  -262143 ≤ year ∧ year ≤ 262142 ∧ 1 ≤ day ∧ day ≤ daysInMonth year month

instance (year : Int) (month day : Nat) : Decidable (Date.IsValid year month day) := by
  unfold Date.IsValid; infer_instance

/-- A day of the calendar. -/
structure Date where
  year : Int
  month : Nat
  day : Nat
  valid : Date.IsValid year month day
  deriving DecidableEq

namespace Date

/-- The date of a year, month and day, if there is one in range. -/
def of? (year : Int) (month day : Nat) : Option Date :=
  if h : IsValid year month day then some ⟨year, month, day, h⟩ else none

/-- The day after, if it is in range. -/
def next? (d : Date) : Option Date :=
  if d.day < daysInMonth d.year d.month then of? d.year d.month (d.day + 1)
  else if d.month < 12 then of? d.year (d.month + 1) 1
  else of? (d.year + 1) 1 1

/-- The day before, if it is in range. -/
def previous? (d : Date) : Option Date :=
  if 1 < d.day then of? d.year d.month (d.day - 1)
  else if 1 < d.month then of? d.year (d.month - 1) (daysInMonth d.year (d.month - 1))
  else of? (d.year - 1) 12 31

/-- The date some days later, if it is in range. -/
def addDays? (d : Date) : Nat → Option Date
  | 0 => some d
  | n + 1 => d.next?.bind fun next => addDays? next n

end Date

/-- A moment in universal time. -/
structure Instant where
  date : Date
  second : Nat
  nanos : Nat
  second_lt : second < 86400
  nanos_lt : nanos < 1000000000 ∨ (nanos < 2000000000 ∧ second % 60 = 59)
  deriving DecidableEq

namespace Instant

/-- The instant at a second of a day, if both are in range. -/
def of? (date : Date) (second nanos : Nat) : Option Instant :=
  if h : second < 86400 ∧ (nanos < 1000000000 ∨ (nanos < 2000000000 ∧ second % 60 = 59)) then
    some ⟨date, second, nanos, h.1, h.2⟩
  else none

/-- The fraction of the second, the leap second apart. -/
def fraction (t : Instant) : Nat := t.nanos % 1000000000

/-- The second as it is written: `60` inside a leap second. -/
def writtenSecond (t : Instant) : Nat := t.second % 60 + t.nanos / 1000000000

/-- The instant some whole seconds later, if it is in range. -/
def addSeconds? (t : Instant) (n : Nat) : Option Instant :=
  if n = 0 then some t
  else do
    let total := t.second + n
    let date ← t.date.addDays? (total / 86400)
    of? date (total % 86400) t.fraction

end Instant

end ChangeAudit
