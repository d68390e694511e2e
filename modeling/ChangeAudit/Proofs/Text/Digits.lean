import ChangeAudit.Text.Blank
import ChangeAudit.Text.Digits

/-!
# Runs of digits in a text

A number written with leading zeros is read as itself (`digitsValue_fixedDigits`) and has the width
it was given if it fits (`length_fixedDigits`). A run ends where no digit follows (`takeWhile_digits`).
-/

namespace ChangeAudit.Text

theorem isDigit_iff {c : Char} : isDigit c = true ↔ 48 ≤ c.toNat ∧ c.toNat ≤ 57 := by
  simp [isDigit, Char.le_def, UInt32.le_iff_toNat_le, ← Char.toNat_val]

theorem isDigit_of_mem_toDigits {n : Nat} {c : Char} (h : c ∈ Nat.toDigits 10 n) :
    isDigit c = true := by
  have digit := Nat.isDigit_of_mem_toDigits (by decide) (by decide) h
  rw [isDigit_iff]
  simpa [Char.isDigit, UInt32.le_iff_toNat_le, ← Char.toNat_val] using digit

theorem isBlank_of_isDigit {c : Char} (h : isDigit c = true) : isBlank c = false := by
  rw [isDigit_iff] at h
  simp only [isBlank, Bool.or_eq_false_iff, Bool.and_eq_false_iff, decide_eq_false_iff_not,
    beq_eq_false_iff_ne, ne_eq]
  omega

theorem skipBlank_cons {c : Char} (h : isBlank c = false) (cs : List Char) :
    skipBlank (c :: cs) = c :: cs := by
  rw [skipBlank, List.dropWhile_cons_of_neg (by simp [h])]

/-! ## Leading zeros -/

theorem digitsValue_zeros (k : Nat) (ds : List Char) :
    digitsValue (List.replicate k '0' ++ ds) = digitsValue ds := by
  induction k with
  | zero => rfl
  | succ k ih => exact ih

theorem digitsValue_fixedDigits (width n : Nat) : digitsValue (fixedDigits width n) = n := by
  rw [fixedDigits, digitsValue_zeros, digitsValue_toDigits]

theorem isDigit_of_mem_fixedDigits {width n : Nat} {c : Char} (h : c ∈ fixedDigits width n) :
    isDigit c = true := by
  rw [fixedDigits, List.mem_append] at h
  rcases h with zero | digit
  · rw [List.eq_of_mem_replicate zero]
    decide
  · exact isDigit_of_mem_toDigits digit

theorem length_fixedDigits {width n : Nat} (some : 0 < width) (fits : n < 10 ^ width) :
    (fixedDigits width n).length = width := by
  have short := (Nat.length_toDigits_le_iff (by decide) some).2 fits
  rw [fixedDigits, List.length_append, List.length_replicate]
  omega

theorem fixedDigits_ne_nil (width n : Nat) : fixedDigits width n ≠ [] := by
  rw [fixedDigits]
  exact List.append_ne_nil_of_right_ne_nil _ Nat.toDigits_ne_nil

/-- A number starts with a digit. -/
theorem exists_fixedDigits_eq_cons (width n : Nat) :
    ∃ d ds, fixedDigits width n = d :: ds ∧ isDigit d = true := by
  cases written : fixedDigits width n with
  | nil => exact absurd written (fixedDigits_ne_nil width n)
  | cons d ds =>
    have member : d ∈ fixedDigits width n := by
      rw [written]
      exact List.mem_cons_self
    exact ⟨d, ds, rfl, isDigit_of_mem_fixedDigits member⟩

theorem exists_toDigits_eq_cons (n : Nat) :
    ∃ d ds, Nat.toDigits 10 n = d :: ds ∧ isDigit d = true := by
  have plain : fixedDigits 0 n = Nat.toDigits 10 n := by
    rw [fixedDigits, Nat.zero_sub, List.replicate_zero, List.nil_append]
  exact plain ▸ exists_fixedDigits_eq_cons 0 n

/-- Without leading zeros, only zero starts with one. -/
theorem head?_toDigits_ne_zero {n : Nat} (h : 0 < n) : (Nat.toDigits 10 n).head? ≠ some '0' := by
  induction n using Nat.strongRecOn with
  | ind n ih =>
    rw [Nat.toDigits_eq_if (by decide)]
    split
    · simp only [List.head?_cons, ne_eq, Option.some.injEq, Nat.digitChar_eq_zero]
      omega
    · rename_i large
      have first := List.head?_eq_some_head (l := Nat.toDigits 10 (n / 10)) Nat.toDigits_ne_nil
      rw [List.head?_append, first, Option.some_or, ← first]
      exact ih (n / 10) (by omega) (by omega)

/-! ## Where a run ends -/

/-- No digit comes first. -/
def NoDigit (cs : List Char) : Prop := ∀ c ∈ cs.head?, isDigit c = false

theorem NoDigit.cons {c : Char} (h : isDigit c = false) (cs : List Char) : NoDigit (c :: cs) := by
  rintro _ ⟨⟩
  exact h

section Run

variable {ds rest : List Char} (digits : ∀ d ∈ ds, isDigit d = true) (stop : NoDigit rest)

include digits stop

theorem takeWhile_digits : (ds ++ rest).takeWhile isDigit = ds := by
  rw [List.takeWhile_append_of_pos digits]
  cases rest with
  | nil => rw [List.takeWhile_nil, List.append_nil]
  | cons c rest =>
    rw [List.takeWhile_cons_of_neg (by simp [stop c rfl]), List.append_nil]

theorem dropWhile_digits : (ds ++ rest).dropWhile isDigit = rest := by
  rw [List.dropWhile_append_of_pos digits]
  cases rest with
  | nil => rfl
  | cons c rest => rw [List.dropWhile_cons_of_neg (by simp [stop c rfl])]

end Run

theorem takeWhile_append_of_noDigit {rest : List Char} (stop : NoDigit rest) (cs : List Char) :
    (cs ++ rest).takeWhile isDigit = cs.takeWhile isDigit := by
  induction cs with
  | nil => exact takeWhile_digits (List.forall_mem_nil _) stop
  | cons c cs ih =>
    by_cases digit : isDigit c = true
    · rw [List.cons_append, List.takeWhile_cons_of_pos digit, List.takeWhile_cons_of_pos digit, ih]
    · rw [List.cons_append, List.takeWhile_cons_of_neg digit, List.takeWhile_cons_of_neg digit]

theorem dropWhile_append_of_noDigit {rest : List Char} (stop : NoDigit rest) (cs : List Char) :
    (cs ++ rest).dropWhile isDigit = cs.dropWhile isDigit ++ rest := by
  induction cs with
  | nil => exact dropWhile_digits (List.forall_mem_nil _) stop
  | cons c cs ih =>
    by_cases digit : isDigit c = true
    · rw [List.cons_append, List.dropWhile_cons_of_pos digit, List.dropWhile_cons_of_pos digit, ih]
    · rw [List.cons_append, List.dropWhile_cons_of_neg digit, List.dropWhile_cons_of_neg digit]
      rfl

end ChangeAudit.Text
