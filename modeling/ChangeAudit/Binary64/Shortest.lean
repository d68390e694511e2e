import ChangeAudit.Binary64

/-!
# The shortest decimal that reads back

`Magnitude.shortest` finds the decimal with the fewest digits among those nearer to the given double
than to any other (the ends of that interval count when the double's rank is even), and among them
the nearest to its value, a tie going to the even last digit. On the grid of `p` digits only the two
neighbours of the value can be nearest, so seventeen grids are searched at most.
-/

namespace ChangeAudit.Magnitude

/-- A decimal `digits * 10 ^ exponent`. -/
structure Decimal where
  digits : Nat
  exponent : Int
  deriving DecidableEq, Repr

/-- The value of a decimal as a ratio. -/
def Decimal.ratio (d : Decimal) : Nat × Nat :=
  if 0 ≤ d.exponent then (d.digits * 10 ^ d.exponent.toNat, 1)
  else (d.digits, 10 ^ (-d.exponent).toNat)

/-- The order of two ratios with positive denominators. -/
def ratioLe (a b : Nat × Nat) : Bool := a.1 * b.2 ≤ b.1 * a.2

/-- The strict order of two ratios with positive denominators. -/
def ratioLt (a b : Nat × Nat) : Bool := a.1 * b.2 < b.1 * a.2

/-- The lower end of the interval that rounds to a positive magnitude. -/
def lowerEnd (x : Magnitude) : Nat × Nat :=
  if x.significand = 2 ^ 52 ∧ -1074 < x.exponent then dyadic (4 * x.significand - 1) (x.exponent - 2)
  else dyadic (2 * x.significand - 1) (x.exponent - 1)

/-- The upper end of the interval that rounds to a positive magnitude. -/
def upperEnd (x : Magnitude) : Nat × Nat := dyadic (2 * x.significand + 1) (x.exponent - 1)

/-- Whether a decimal reads back as the magnitude. -/
def readsBack (x : Magnitude) (d : Decimal) : Bool :=
  if x.rank % 2 = 0 then ratioLe x.lowerEnd d.ratio && ratioLe d.ratio x.upperEnd
  else ratioLt x.lowerEnd d.ratio && ratioLt d.ratio x.upperEnd

/-- The exponent of the first digit of a positive magnitude: `10 ^ k ≤ value < 10 ^ (k + 1)`. -/
def leadingExponent (x : Magnitude) : Int :=
  let guess : Int := (((Nat.log2 x.significand : Int) + x.exponent) * 30103).fdiv 100000
  if ratioLe (Decimal.ratio ⟨1, guess + 1⟩) x.ratio then guess + 1
  else if ratioLt x.ratio (Decimal.ratio ⟨1, guess⟩) then guess - 1
  else guess

/-- The nearer of the two neighbours of the value on the grid of step `10 ^ step`, if one of them
reads back. -/
def onGrid? (x : Magnitude) (step : Int) : Option Decimal :=
  let (a, b) := x.ratio
  let (n, d) := if 0 ≤ step then (a, b * 10 ^ step.toNat) else (a * 10 ^ (-step).toNat, b)
  let q := n / d
  let r := n % d
  let below : Decimal := ⟨q, step⟩
  let above : Decimal := ⟨q + 1, step⟩
  match x.readsBack below, x.readsBack above with
  | true, true =>
    if 2 * r < d then some below
    else if d < 2 * r then some above
    else if q % 2 = 0 then some below else some above
  | true, false => some below
  | false, true => some above
  | false, false => none

/-- Drops the trailing zeros of the digits. -/
def Decimal.trim (d : Decimal) : (fuel : Nat) → Decimal
  | 0 => d
  | fuel + 1 =>
    if d.digits ≠ 0 ∧ d.digits % 10 = 0 then Decimal.trim ⟨d.digits / 10, d.exponent + 1⟩ fuel else d

/-- The first of the grids of `p, p + 1, …` digits with a decimal that reads back. -/
def searchGrids (x : Magnitude) (lead : Int) (p : Nat) : (fuel : Nat) → Option Decimal
  | 0 => none
  | fuel + 1 =>
    match x.onGrid? (lead + 1 - p) with
    | some d => some d
    | none => searchGrids x lead (p + 1) fuel

/-- The shortest decimal that reads back as the magnitude. -/
def shortest (x : Magnitude) : Decimal :=
  if x.rank = 0 then ⟨0, 0⟩
  else ((searchGrids x x.leadingExponent 1 17).getD ⟨0, 0⟩).trim 20

end ChangeAudit.Magnitude
