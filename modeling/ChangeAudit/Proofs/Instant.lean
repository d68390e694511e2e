import ChangeAudit.Instant.Rfc3339
import ChangeAudit.Proofs.Text.Digits

/-!
# Written instants are read back

`Instant.parse?` reads the text of every instant as that instant (`parse?_text`): of every year that
a date can have, with any fraction and inside a leap second. Each number is written with digits only
and ended by a mark, so each scanner stops where the next one starts.
-/

namespace ChangeAudit

open Text

/-- The first moment of 1970, for runs in which the time does not matter. -/
def Instant.epoch : Instant := ⟨⟨1970, 1, 1, by decide⟩, 0, 0, by decide, by decide⟩

theorem Date.of?_self (d : Date) : Date.of? d.year d.month d.day = some d := dif_pos d.valid

theorem daysInMonth_le (year : Int) (month : Nat) : daysInMonth year month ≤ 31 := by
  unfold daysInMonth
  split <;> (try split) <;> decide

/-- A month that has a day is at most the twelfth. -/
theorem Date.IsValid.month_le {year : Int} {month day : Nat} (valid : Date.IsValid year month day) :
    month ≤ 12 := by
  have day := valid.2.2
  unfold daysInMonth at day
  split at day <;> omega

namespace Instant

/-! ## Numbers and marks -/

theorem scanNumber_append {width : Option Nat} {ds : List Char} {c : Char}
    (digits : ∀ d ∈ ds, isDigit d = true) (stop : isDigit c = false) (some : ds ≠ [])
    (fits : ∀ w ∈ width, ds.length ≤ w) (rest : List Char) :
    scanNumber width (ds ++ c :: rest) = .some (digitsValue ds, c :: rest) := by
  cases width with
  | none =>
    simp only [scanNumber, takeWhile_digits digits (NoDigit.cons stop rest), some, if_false]
    rw [List.drop_left]
  | some w =>
    simp only [scanNumber, takeWhile_digits digits (NoDigit.cons stop rest),
      List.take_of_length_le (fits w rfl), some, if_false]
    rw [List.drop_left]

theorem scanNumber_fixedDigits {width : Option Nat} {w n : Nat} {c : Char}
    (stop : isDigit c = false) (fits : ∀ bound ∈ width, (fixedDigits w n).length ≤ bound)
    (rest : List Char) :
    scanNumber width (fixedDigits w n ++ c :: rest) = some (n, c :: rest) := by
  rw [scanNumber_append (fun d => isDigit_of_mem_fixedDigits) stop (fixedDigits_ne_nil w n) fits,
    digitsValue_fixedDigits]

theorem skipBlank_fixedDigits (w n : Nat) (rest : List Char) :
    skipBlank (fixedDigits w n ++ rest) = fixedDigits w n ++ rest := by
  obtain ⟨d, ds, written, digit⟩ := exists_fixedDigits_eq_cons w n
  rw [written, List.cons_append, skipBlank_cons (isBlank_of_isDigit digit)]

theorem scanTwo_fixedDigits {n : Nat} {c : Char} (small : n < 100) (stop : isDigit c = false)
    (rest : List Char) : scanTwo (fixedDigits 2 n ++ c :: rest) = some (n, c :: rest) := by
  rw [scanTwo, skipBlank_fixedDigits]
  refine scanNumber_fixedDigits stop ?_ rest
  rintro bound ⟨⟩
  exact Nat.le_of_eq (length_fixedDigits (by decide) small)

theorem scanMark_cons {mark : Char} (visible : isBlank mark = false) (rest : List Char) :
    scanMark mark (mark :: rest) = some rest := by
  rw [scanMark, skipBlank_cons visible]
  exact if_pos rfl

theorem scanYear_renderYear (year : Int) (rest : List Char) :
    scanYear (renderYear year ++ '-' :: rest) = some (year, '-' :: rest) := by
  unfold renderYear
  split
  · rename_i range
    have value : ((year.toNat : Nat) : Int) = year := Int.toNat_of_nonneg range.1
    have read : scanNumber (some 4) (fixedDigits 4 year.toNat ++ '-' :: rest) =
        some (year.toNat, '-' :: rest) := by
      refine scanNumber_fixedDigits (by decide) ?_ rest
      rintro bound ⟨⟩
      exact Nat.le_of_eq (length_fixedDigits (by decide) (by omega))
    obtain ⟨d, ds, written, digit⟩ := exists_fixedDigits_eq_cons 4 year.toNat
    rw [scanYear, skipBlank_fixedDigits]
    split
    · rename_i front
      rw [written] at front
      cases front
      nomatch digit
    · rename_i front
      rw [written] at front
      cases front
      nomatch digit
    · simp only [read, Option.map_some, value]
  · rename_i outside
    have read : scanNumber none (fixedDigits 4 year.natAbs ++ '-' :: rest) =
        some (year.natAbs, '-' :: rest) :=
      scanNumber_fixedDigits (by decide) (by simp) rest
    by_cases before : year < 0
    · rw [if_pos before, List.cons_append, scanYear, skipBlank_cons (by decide)]
      simp only [read, Option.map_some, Option.some.injEq, Prod.mk.injEq, and_true]
      omega
    · rw [if_neg before, List.cons_append, scanYear, skipBlank_cons (by decide)]
      simp only [read, Option.map_some, Option.some.injEq, Prod.mk.injEq, and_true]
      omega

/-! ## The fraction -/

theorem scanFraction_digits {w n : Nat} (some : 0 < w) (short : w ≤ 9) (fits : n < 10 ^ w)
    {c : Char} (stop : isDigit c = false) (rest : List Char) :
    scanFraction ('.' :: (fixedDigits w n ++ c :: rest)) =
      .some (n * 10 ^ (9 - w), c :: rest) := by
  have length : (fixedDigits w n).length = w := length_fixedDigits some fits
  have digits : ∀ d ∈ fixedDigits w n, isDigit d = true := fun d => isDigit_of_mem_fixedDigits
  simp only [scanFraction, takeWhile_digits digits (NoDigit.cons stop rest),
    dropWhile_digits digits (NoDigit.cons stop rest), fixedDigits_ne_nil, if_false,
    List.take_of_length_le (Nat.le_trans (Nat.le_of_eq length) short), digitsValue_fixedDigits,
    length]

theorem scanFraction_renderFraction {nanos : Nat} (small : nanos < 1000000000) (rest : List Char) :
    scanFraction (renderFraction nanos ++ 'Z' :: rest) = some (nanos, 'Z' :: rest) := by
  unfold renderFraction
  split
  · rename_i whole
    subst whole
    rfl
  · split
    · rename_i millis
      rw [List.cons_append, scanFraction_digits (by decide) (by decide) (by omega) (by decide)]
      simp only [Option.some.injEq, Prod.mk.injEq, and_true]
      omega
    · split
      · rename_i micros
        rw [List.cons_append, scanFraction_digits (by decide) (by decide) (by omega) (by decide)]
        simp only [Option.some.injEq, Prod.mk.injEq, and_true]
        omega
      · rw [List.cons_append, scanFraction_digits (by decide) (by decide) small (by decide)]
        simp only [Option.some.injEq, Prod.mk.injEq, and_true]
        omega

/-! ## Date and time -/

theorem of?_self (t : Instant) : of? t.date t.second t.nanos = some t :=
  dif_pos ⟨t.second_lt, t.nanos_lt⟩

/-- The time of day is found again, a leap second as one more second. -/
theorem timeOfDay?_written (t : Instant) :
    timeOfDay? (t.second / 3600) (t.second / 60 % 60) t.writtenSecond =
      some (t.second, t.nanos - t.fraction) := by
  have day := t.second_lt
  have range : t.second / 3600 < 24 ∧ t.second / 60 % 60 < 60 := by omega
  unfold timeOfDay? writtenSecond fraction
  rw [if_pos range]
  rcases t.nanos_lt with usual | ⟨leap, last⟩
  · rw [if_pos (by omega)]
    simp only [Option.some.injEq, Prod.mk.injEq]
    omega
  · by_cases usual : t.nanos < 1000000000
    · rw [if_pos (by omega)]
      simp only [Option.some.injEq, Prod.mk.injEq]
      omega
    · rw [if_neg (by omega), if_pos (by omega)]
      simp only [Option.some.injEq, Prod.mk.injEq]
      omega

theorem ofLocal?_universal (t : Instant) :
    ofLocal? t.date t.second (t.nanos - t.fraction + t.fraction) 0 = some t := by
  have day := t.second_lt
  have whole : t.nanos - t.fraction + t.fraction = t.nanos := by
    unfold fraction
    omega
  unfold ofLocal?
  simp only [Int.sub_zero, whole]
  rw [if_neg (by omega), if_pos (by omega), Int.toNat_natCast, of?_self]

theorem writtenSecond_lt (t : Instant) : t.writtenSecond < 100 := by
  have nanos := t.nanos_lt
  unfold writtenSecond
  omega

theorem fraction_lt (t : Instant) : t.fraction < 1000000000 := Nat.mod_lt _ (by decide)

/-- The seconds are ended by the point of a fraction or by the zone. -/
theorem renderFraction_zone (nanos : Nat) :
    ∃ c rest, renderFraction nanos ++ ['Z'] = c :: rest ∧ isDigit c = false := by
  unfold renderFraction
  split
  · exact ⟨'Z', [], rfl, rfl⟩
  · split
    · exact ⟨'.', _, List.cons_append, rfl⟩
    · split <;> exact ⟨'.', _, List.cons_append, rfl⟩

theorem parseChars?_render (t : Instant) : parseChars? t.render = some t := by
  have month : t.date.month < 100 :=
    Nat.lt_of_le_of_lt t.date.valid.month_le (by decide)
  have day : t.date.day < 100 := by
    have := daysInMonth_le t.date.year t.date.month
    have := t.date.valid.2.2.2
    omega
  have hour : t.second / 3600 < 100 := by
    have := t.second_lt
    omega
  have minute : t.second / 60 % 60 < 100 := by omega
  have second : scanTwo (fixedDigits 2 t.writtenSecond ++ (renderFraction t.fraction ++ ['Z'])) =
      some (t.writtenSecond, renderFraction t.fraction ++ ['Z']) := by
    obtain ⟨c, rest, written, stop⟩ := renderFraction_zone t.fraction
    rw [written, scanTwo_fixedDigits t.writtenSecond_lt stop]
  simp only [render, renderWhole, List.append_assoc, List.cons_append]
  -- each part is read off the front, up to the mark that ends it
  refine Option.bind_eq_some_iff.2 ⟨_, scanYear_renderYear _ _, ?_⟩
  refine Option.bind_eq_some_iff.2 ⟨_, scanMark_cons (by decide) _, ?_⟩
  refine Option.bind_eq_some_iff.2 ⟨_, scanTwo_fixedDigits month (by decide) _, ?_⟩
  refine Option.bind_eq_some_iff.2 ⟨_, scanMark_cons (by decide) _, ?_⟩
  refine Option.bind_eq_some_iff.2 ⟨_, scanTwo_fixedDigits day (by decide) _, ?_⟩
  refine Option.bind_eq_some_iff.2 ⟨_, rfl, ?_⟩
  refine Option.bind_eq_some_iff.2 ⟨_, scanTwo_fixedDigits hour (by decide) _, ?_⟩
  refine Option.bind_eq_some_iff.2 ⟨_, scanMark_cons (by decide) _, ?_⟩
  refine Option.bind_eq_some_iff.2 ⟨_, scanTwo_fixedDigits minute (by decide) _, ?_⟩
  refine Option.bind_eq_some_iff.2 ⟨_, scanMark_cons (by decide) _, ?_⟩
  refine Option.bind_eq_some_iff.2 ⟨_, second, ?_⟩
  refine Option.bind_eq_some_iff.2 ⟨_, scanFraction_renderFraction t.fraction_lt _, ?_⟩
  have zone : scanZone (skipBlank ['Z']) = some (0, []) := by decide
  refine Option.bind_eq_some_iff.2 ⟨_, zone, ?_⟩
  refine (if_pos (show skipBlank [] = [] from rfl)).trans ?_
  refine Option.bind_eq_some_iff.2 ⟨_, Date.of?_self t.date, ?_⟩
  refine Option.bind_eq_some_iff.2 ⟨_, timeOfDay?_written t, ?_⟩
  exact ofLocal?_universal t

/-- The text of an instant writes that instant. -/
theorem parse?_text (t : Instant) : parse? t.text = some t := by
  rw [parse?, text, String.toList_ofList, parseChars?_render]

end Instant

end ChangeAudit
