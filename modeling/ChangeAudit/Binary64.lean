import ChangeAudit.Power

/-!
# Finite double-precision numbers

A magnitude is stored as its rank among the non-negative finite doubles: rank `0` is zero, rank
`1` the least positive one, and the order of ranks is the order of values. A rank below `2 ^ 52` is
subnormal. `Magnitude.ofRatio?` rounds an exact ratio to the nearest magnitude, a tie going to the
even rank, and has no answer beyond the greatest double; products and quotients are the exact ones,
rounded so.
-/

namespace ChangeAudit

/-- A non-negative finite double, as its rank among them. -/
structure Magnitude where
  rank : Nat
  finite : rank < 2047 * 2 ^ 52
  deriving DecidableEq

namespace Magnitude

/-- Zero. -/
def zero : Magnitude := ⟨0, by decide⟩

/-- The significand `m` of the value `m * 2 ^ e`. -/
def significand (x : Magnitude) : Nat :=
  if x.rank < 2 ^ 52 then x.rank else x.rank % 2 ^ 52 + 2 ^ 52

/-- The exponent `e` of the value `m * 2 ^ e`. -/
def exponent (x : Magnitude) : Int :=
  if x.rank < 2 ^ 52 then -1074 else (x.rank / 2 ^ 52 : Nat) - 1075

/-- The numerator and denominator of `m * 2 ^ e`. -/
def dyadic (m : Nat) (e : Int) : Nat × Nat :=
  if 0 ≤ e then (m * 2 ^ e.toNat, 1) else (m, 2 ^ (-e).toNat)

/-- The exact value as a ratio. -/
def ratio (x : Magnitude) : Nat × Nat := dyadic x.significand x.exponent

/-- The quotient rounded to the nearest whole number, a tie going to the even one. -/
def roundDiv (num den : Nat) : Nat :=
  let q := num / den
  let r := num % den
  if 2 * r < den then q else if den < 2 * r then q + 1 else q + q % 2

/-- The numerator and denominator of `num / den / 2 ^ e`. -/
def shifted (num den : Nat) (e : Int) : Nat × Nat :=
  if 0 ≤ e then (num, den * 2 ^ e.toNat) else (num * 2 ^ (-e).toNat, den)

/-- The exponent at which the ratio has a significand of 53 bits, or the least exponent. -/
def scaleOf (num den : Nat) : Int :=
  let guess : Int := (Nat.log2 num : Int) - Nat.log2 den - 52
  let (n, d) := shifted num den guess
  max (-1074) (if n / d < 2 ^ 52 then guess - 1 else guess)

/-- The nearest magnitude to `num / den`; none beyond the greatest double. -/
def ofRatio? (num den : Nat) : Option Magnitude :=
  if num = 0 then some zero
  else
    let e := scaleOf num den
    let (n, d) := shifted num den e
    let rank := (e + 1074).toNat * 2 ^ 52 + roundDiv n d
    if h : rank < 2047 * 2 ^ 52 then some ⟨rank, h⟩ else none

/-- The nearest magnitude to a natural number. -/
def ofNat? (n : Nat) : Option Magnitude := ofRatio? n 1

/-- The rounded product. -/
def mul? (x y : Magnitude) : Option Magnitude :=
  let (a, b) := x.ratio
  let (c, d) := y.ratio
  ofRatio? (a * c) (b * d)

/-- The rounded quotient; none for a zero divisor. -/
def div? (x y : Magnitude) : Option Magnitude :=
  if y.rank = 0 then none
  else
    let (a, b) := x.ratio
    let (c, d) := y.ratio
    ofRatio? (a * d) (b * c)

/-- The magnitude of `significand * 10 ^ exponent`, rounded step by step: the significand, the power
of ten, and then their product or quotient. Divisors above `10 ^ 308` are applied in two steps, and
what remains beyond two steps is zero. -/
def ofDecimal? (significand : Nat) (exponent : Int) : Option Magnitude := do
  let s ← ofNat? significand
  let n := exponent.natAbs
  if 0 ≤ exponent then
    if n ≤ 308 then s.mul? (← ofNat? (10 ^ n))
    else if significand = 0 then some zero else none
  else if n ≤ 308 then s.div? (← ofNat? (10 ^ n))
  else if n ≤ 616 then
    (← s.div? (← ofNat? (10 ^ 308))).div? (← ofNat? (10 ^ (n - 308)))
  else some zero

end Magnitude

/-- A finite double: a sign and a magnitude, so that zero has two signs. -/
structure Binary64 where
  negative : Bool
  magnitude : Magnitude
  deriving DecidableEq

/-- Equality of value: the two zeros are equal. -/
def Binary64.same (x y : Binary64) : Bool :=
  x = y || (x.magnitude.rank == 0 && y.magnitude.rank == 0)

end ChangeAudit
