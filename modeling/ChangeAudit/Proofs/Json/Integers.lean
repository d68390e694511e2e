import ChangeAudit.Json.Numeral
import ChangeAudit.Json.Printer
import ChangeAudit.Proofs.Text.Digits

/-!
# Integers are read back

`Numeral.scan` reads a written integer up to its last digit (`scan_renderInt`), provided that the
text after it does not continue a numeral, and the numeral stands for that integer if it fits in 64
bits, signed or not (`value?_integer`).
-/

namespace ChangeAudit

open Text

/-- Whether a number is an integer that fits in 64 bits, signed or not. -/
def Number.isInteger64 : Number → Bool
  | .int i => -2 ^ 63 ≤ i && i < 2 ^ 64
  | .float _ => false

theorem Number.isInteger64_natCast {n : Nat} (h : n < 2 ^ 64) :
    (Number.int n).isInteger64 = true := by
  have low : (-2 ^ 63 : Int) ≤ n := by omega
  have high : (n : Int) < 2 ^ 64 := by omega
  rw [isInteger64, decide_eq_true low, decide_eq_true high, Bool.and_self]

namespace Numeral

/-- What comes next neither prolongs the digits of a numeral nor starts its fraction or exponent. -/
def Ended (cs : List Char) : Prop :=
  ∀ c ∈ cs.head?, isDigit c = false ∧ c ≠ '.' ∧ c ≠ 'e' ∧ c ≠ 'E'

theorem Ended.noDigit {cs : List Char} (h : Ended cs) : NoDigit cs := fun c first => (h c first).1

/-- The numeral of an integer. -/
def integer (i : Int) : Numeral := ⟨decide (i < 0), Nat.toDigits 10 i.natAbs, none, none⟩

variable {rest : List Char}

theorem scanWhole_toDigits (n : Nat) (stop : NoDigit rest) :
    scanWhole (Nat.toDigits 10 n ++ rest) = some (Nat.toDigits 10 n, rest) := by
  by_cases zero : n = 0
  · subst zero
    cases rest with
    | nil => rfl
    | cons c rest => exact if_neg (by simp [stop c rfl])
  · have first := head?_toDigits_ne_zero (Nat.pos_of_ne_zero zero)
    have digits : ∀ c ∈ Nat.toDigits 10 n, isDigit c = true := fun c => isDigit_of_mem_toDigits
    cases written : Nat.toDigits 10 n with
    | nil => exact absurd written Nat.toDigits_ne_nil
    | cons d ds =>
      rw [written] at first digits
      have more : ∀ c ∈ ds, isDigit c = true := fun c member =>
        digits c (List.mem_cons_of_mem d member)
      rw [List.cons_append, scanWhole, if_pos (digits d List.mem_cons_self),
        takeWhile_digits more stop, dropWhile_digits more stop]
      rintro rfl
      exact first rfl

theorem scanFraction_ended (ended : Ended rest) : scanFraction rest = some (none, rest) := by
  cases rest with
  | nil => rfl
  | cons c rest =>
    have point := (ended c rfl).2.1
    unfold scanFraction
    split
    · rename_i front
      cases front
      exact absurd rfl point
    · rfl

theorem scanExponent_ended (ended : Ended rest) : scanExponent rest = some (none, rest) := by
  cases rest with
  | nil => rfl
  | cons c rest =>
    have mark := (ended c rfl).2.2
    exact if_neg (by simp [mark])

/-- A written integer is read as its numeral. -/
theorem scan_renderInt (i : Int) (ended : Ended rest) :
    scan (renderInt i ++ rest) = some (integer i, rest) := by
  have digits : scanWhole (Nat.toDigits 10 i.natAbs ++ rest) = _ :=
    scanWhole_toDigits i.natAbs ended.noDigit
  unfold scan renderInt integer
  by_cases negative : i < 0
  · simp only [negative, if_true, List.cons_append, digits, scanFraction_ended ended,
      scanExponent_ended ended, Option.bind_eq_bind, Option.bind_some, decide_true]
  · obtain ⟨d, ds, written, digit⟩ := exists_toDigits_eq_cons i.natAbs
    simp only [negative, if_false, decide_false]
    split
    · rename_i minus
      rw [written] at minus
      cases minus
      nomatch digit
    · simp only [digits, scanFraction_ended ended, scanExponent_ended ended, Option.bind_eq_bind,
        Option.bind_some]

/-- The numeral of an integer of 64 bits stands for that integer. -/
theorem value?_integer {i : Int} (fits : (Number.int i).isInteger64 = true) :
    (integer i).value? = some (.int i) := by
  simp only [Number.isInteger64, Bool.and_eq_true, decide_eq_true_eq] at fits
  have exact : (integer i).int? = some i := by
    simp only [int?, integer, Option.isNone_none, digitsValue_toDigits, and_self, if_true,
      decide_eq_true_eq]
    by_cases negative : i < 0
    · rw [if_pos negative, if_pos (by omega), Option.some.injEq]
      omega
    · rw [if_neg negative, if_pos (by omega), Option.some.injEq]
      omega
  rw [value?, exact]

end Numeral

end ChangeAudit
