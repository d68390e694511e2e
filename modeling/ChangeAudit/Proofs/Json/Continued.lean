import ChangeAudit.Proofs.Json.RoundTrip
import Mathlib.Data.List.TakeWhile

/-!
# What stands around a value

A reader that found a value at the front of a text finds the same one when the text goes on, as long
as what follows does not prolong a numeral at the very end (`Term.scanValue_append`). So once a text
says a value, it says none any more when another token is put behind it
(`Term.parseChars?_append_eq_none`). In front of a value only the four blanks of the grammar may
stand: they change nothing (`Term.parseChars?_append_of_all`), and a text that starts with another
blank says nothing (`Term.parseChars?_eq_none_of_isBlank`).
-/

namespace ChangeAudit

open Text (isDigit NoDigit takeWhile_append_of_noDigit dropWhile_append_of_noDigit)

namespace Numeral

variable {more cs rest : List Char}

theorem scanWhole_append {ds : List Char} (stop : NoDigit more)
    (h : scanWhole cs = some (ds, rest)) : scanWhole (cs ++ more) = some (ds, rest ++ more) := by
  unfold scanWhole at h
  split at h
  · split at h
    · next c _ =>
      split at h
      · nomatch h
      · next plain =>
        cases h
        exact if_neg plain
    · cases h
      cases more with
      | nil => rfl
      | cons c more => exact if_neg (by simp [stop c rfl])
  · next c cs nonzero =>
    split at h
    · next digit =>
      cases h
      rw [List.cons_append, scanWhole, if_pos digit, takeWhile_append_of_noDigit stop,
        dropWhile_append_of_noDigit stop]
      exact nonzero
    · nomatch h
  · nomatch h

theorem scanDigits_append {ds : List Char} (stop : NoDigit more)
    (h : scanDigits cs = some (ds, rest)) : scanDigits (cs ++ more) = some (ds, rest ++ more) := by
  unfold scanDigits at h ⊢
  rw [takeWhile_append_of_noDigit stop, dropWhile_append_of_noDigit stop]
  split at h
  · nomatch h
  · cases h
    rfl

theorem map_scanDigits_append {α : Type} {f : List Char → α} {found : α} (stop : NoDigit more)
    (h : ((scanDigits cs).map fun (ds, rest) => (f ds, rest)) = some (found, rest)) :
    ((scanDigits (cs ++ more)).map fun (ds, rest) => (f ds, rest)) = some (found, rest ++ more) := by
  obtain ⟨⟨ds, left⟩, digits, same⟩ := Option.map_eq_some_iff.1 h
  cases same
  rw [scanDigits_append stop digits]
  rfl

theorem scanFraction_append {fraction : Option (List Char)} (ended : Ended more)
    (h : scanFraction cs = some (fraction, rest)) :
    scanFraction (cs ++ more) = some (fraction, rest ++ more) := by
  unfold scanFraction at h
  split at h
  · exact map_scanDigits_append (f := some) ended.noDigit h
  · next plain =>
    cases h
    cases cs with
    | nil => exact scanFraction_ended ended
    | cons c cs =>
      rw [List.cons_append, scanFraction]
      intro later point
      exact plain cs (congrArg (· :: cs) (List.cons.inj point).1)

theorem scanExponent_append {exponent : Option (Bool × List Char)} (ended : Ended more)
    (h : scanExponent cs = some (exponent, rest)) :
    scanExponent (cs ++ more) = some (exponent, rest ++ more) := by
  cases cs with
  | nil =>
    cases h
    exact scanExponent_ended ended
  | cons c cs =>
    by_cases mark : c = 'e' ∨ c = 'E'
    · simp only [List.cons_append, scanExponent, if_pos mark] at h ⊢
      split at h
      · exact map_scanDigits_append (f := fun ds => some (false, ds)) ended.noDigit h
      · exact map_scanDigits_append (f := fun ds => some (true, ds)) ended.noDigit h
      · next plus minus =>
        cases cs with
        | nil => cases h
        | cons d ds =>
          -- a sign in front of the longer text would be one in front of the digits
          split
          · next sign => exact absurd (congrArg (· :: ds) (List.cons.inj sign).1) (plus ds)
          · next sign => exact absurd (congrArg (· :: ds) (List.cons.inj sign).1) (minus ds)
          · exact map_scanDigits_append (f := fun ds => some (false, ds)) ended.noDigit h
    · have here : some (none, c :: cs) = some (exponent, rest) := (if_neg mark).symm.trans h
      cases here
      exact if_neg mark

theorem scan_append {n : Numeral} (ended : Ended more) (h : scan cs = some (n, rest)) :
    scan (cs ++ more) = some (n, rest ++ more) := by
  unfold scan at h ⊢
  simp only [Option.bind_eq_bind, Option.bind_eq_some_iff] at h ⊢
  split at h
  · obtain ⟨_, foundWhole, _, foundFraction, _, foundExponent, same⟩ := h
    cases same
    exact ⟨_, scanWhole_append ended.noDigit foundWhole, _,
      scanFraction_append ended foundFraction, _, scanExponent_append ended foundExponent, rfl⟩
  · next plain =>
    obtain ⟨_, foundWhole, _, foundFraction, _, foundExponent, same⟩ := h
    cases same
    split
    · next rest minus =>
      cases cs with
      | nil => nomatch foundWhole
      | cons c cs => exact absurd (congrArg (· :: cs) (List.cons.inj minus).1) (plain cs)
    · exact ⟨_, scanWhole_append ended.noDigit foundWhole, _,
        scanFraction_append ended foundFraction, _, scanExponent_append ended foundExponent, rfl⟩

/-- A numeral starts with a sign or a digit. -/
theorem exists_eq_cons_of_scan {n : Numeral} (h : scan cs = some (n, rest)) :
    ∃ c tail, cs = c :: tail ∧ (c = '-' ∨ isDigit c = true) := by
  cases cs with
  | nil => nomatch h
  | cons c tail =>
    refine ⟨c, tail, rfl, ?_⟩
    by_cases minus : c = '-'
    · exact .inl minus
    · right
      unfold scan at h
      simp only [Option.bind_eq_bind, Option.bind_eq_some_iff] at h
      split at h
      · next front => exact absurd (List.cons.inj front).1 minus
      · obtain ⟨_, found, -⟩ := h
        unfold scanWhole at found
        split at found
        · next zero =>
          rw [(List.cons.inj zero).1]
          decide
        · next front =>
          rw [(List.cons.inj front).1]
          split at found
          · assumption
          · nomatch found
        · next none => nomatch none

end Numeral

namespace Term

open Numeral (Ended)

variable {more cs rest : List Char}

theorem scanPieces_append {ps : List Piece} (more : List Char)
    (h : scanPieces cs = some (ps, rest)) : scanPieces (cs ++ more) = some (ps, rest ++ more) := by
  fun_induction scanPieces cs generalizing ps rest with
  | case1 => cases h
  | case2 tail =>
    cases h
    rfl
  | case3 a b c d tail u inner left found code ih =>
    cases h
    simp only [List.cons_append, scanPieces, code, ih found]
  | case4 => cases h
  | case5 e tail _ c inner left found letter ih =>
    cases h
    rw [List.cons_append, List.cons_append, scanPieces, letter, ih found]
    rintro _ _ _ _ _ rfl -
    cases letter
  | case6 => cases h
  | case7 => cases h
  | case8 c tail quote _ _ plain inner left found ih =>
    cases h
    rw [List.cons_append, scanPieces, if_neg plain, ih found]
    · exact quote
    · rintro _ _ _ _ _ rfl -
      exact plain (.inr rfl)
    · rintro _ _ rfl -
      exact plain (.inr rfl)
  | case9 => cases h

theorem scanString_append {s : Option String} (more : List Char)
    (h : scanString cs = some (s, rest)) : scanString (cs ++ more) = some (s, rest ++ more) := by
  obtain ⟨⟨ps, left⟩, found, same⟩ := Option.map_eq_some_iff.1 h
  cases same
  rw [scanString, scanPieces_append more found]
  rfl

/-- A word or a numeral that was found is not continued by what may stand after a numeral. -/
theorem scanAtom_append {t : Term} (ended : Ended more) (h : scanAtom cs = some (t, rest)) :
    scanAtom (cs ++ more) = some (t, rest ++ more) := by
  unfold scanAtom at h
  split at h
  · cases h
    rfl
  · cases h
    rfl
  · cases h
    rfl
  · obtain ⟨⟨n, left⟩, found, same⟩ := Option.map_eq_some_iff.1 h
    cases same
    obtain ⟨c, tail, rfl, front⟩ := Numeral.exists_eq_cons_of_scan found
    rw [scanAtom, Numeral.scan_append ended found]
    · rfl
    · intro _ word
      rw [(List.cons.inj word).1] at front
      exact absurd front (by decide)
    · intro _ word
      rw [(List.cons.inj word).1] at front
      exact absurd front (by decide)
    · intro _ word
      rw [(List.cons.inj word).1] at front
      exact absurd front (by decide)

theorem skipBlanks_append (some : skipBlanks cs ≠ []) (more : List Char) :
    skipBlanks (cs ++ more) = skipBlanks cs ++ more := by
  rw [skipBlanks] at some
  rw [skipBlanks, List.dropWhile_append, if_neg (mt List.isEmpty_iff.1 some)]
  rfl

theorem skipBlanks_append_cons {c : Char} {tail : List Char} (h : skipBlanks cs = c :: tail)
    (more : List Char) : skipBlanks (cs ++ more) = c :: (tail ++ more) := by
  rw [skipBlanks_append (by rw [h]; exact List.cons_ne_nil c tail), h]
  rfl

theorem ne_nil_of_scanValue {fuel depth : Nat} {t : Term}
    (h : scanValue fuel depth cs = some (t, rest)) : cs ≠ [] := by
  rintro rfl
  cases fuel <;> nomatch h

theorem ne_nil_of_scanItems {fuel depth : Nat} {items : List Term}
    (h : scanItems fuel depth cs = some (items, rest)) : cs ≠ [] := by
  rintro rfl
  cases fuel with
  | zero => nomatch h
  | succ fuel => cases fuel <;> nomatch h

theorem ne_nil_of_scanMembers {fuel depth : Nat} {members : List (Option String × Term)}
    (h : scanMembers fuel depth cs = some (members, rest)) : cs ≠ [] := by
  rintro rfl
  cases fuel <;> nomatch h

mutual

/-- A value that was found is found with more fuel, and when the text goes on. -/
theorem scanValue_append (ended : Ended more) : ∀ {fuel fuel' depth : Nat} {cs : List Char}
    {t : Term} {rest : List Char}, fuel ≤ fuel' → scanValue fuel depth cs = some (t, rest) →
    scanValue fuel' depth (cs ++ more) = some (t, rest ++ more)
  | 0, _, _, _, _, _, _, h => nomatch h
  | fuel + 1, fuel' + 1, depth, cs, t, rest, enough, h => by
    have enough := Nat.le_of_succ_le_succ enough
    unfold scanValue at h
    split at h
    · obtain ⟨⟨s, left⟩, found, same⟩ := Option.map_eq_some_iff.1 h
      cases same
      rw [List.cons_append, scanValue, scanString_append more found]
      rfl
    · next tail =>
      rw [List.cons_append, scanValue]
      split at h
      · next left closed =>
        cases h
        rw [skipBlanks_append_cons closed]
        rfl
      · next front =>
        split at h
        · next items left found =>
          cases h
          obtain ⟨c, later, shape⟩ := List.exists_cons_of_ne_nil (ne_nil_of_scanItems found)
          have items := scanItems_append ended enough found
          rw [shape, List.cons_append] at items
          rw [skipBlanks_append_cons shape]
          split
          · next closed =>
            rw [(List.cons.inj closed).1] at shape
            exact absurd shape (front later)
          · rw [items]
        · nomatch h
    · next tail =>
      rw [List.cons_append, scanValue]
      split at h
      · next left closed =>
        cases h
        rw [skipBlanks_append_cons closed]
        rfl
      · next front =>
        split at h
        · next members left found =>
          cases h
          obtain ⟨c, later, shape⟩ := List.exists_cons_of_ne_nil (ne_nil_of_scanMembers found)
          have members := scanMembers_append ended enough found
          rw [shape, List.cons_append] at members
          rw [skipBlanks_append_cons shape]
          split
          · next closed =>
            rw [(List.cons.inj closed).1] at shape
            exact absurd shape (front later)
          · rw [members]
        · nomatch h
    · next quote bracket brace =>
      have atom := scanAtom_append ended h
      cases cs with
      | nil => nomatch h
      | cons c tail =>
        rw [List.cons_append] at atom ⊢
        rw [scanValue, atom]
        · exact fun _ front => quote tail (congrArg (· :: tail) (List.cons.inj front).1)
        · exact fun _ front => bracket tail (congrArg (· :: tail) (List.cons.inj front).1)
        · exact fun _ front => brace tail (congrArg (· :: tail) (List.cons.inj front).1)

theorem scanItems_append (ended : Ended more) : ∀ {fuel fuel' depth : Nat} {cs : List Char}
    {items : List Term} {rest : List Char}, fuel ≤ fuel' →
    scanItems fuel depth cs = some (items, rest) →
    scanItems fuel' depth (cs ++ more) = some (items, rest ++ more)
  | 0, _, _, _, _, _, _, h => nomatch h
  | fuel + 1, fuel' + 1, depth, cs, items, rest, enough, h => by
    have enough := Nat.le_of_succ_le_succ enough
    unfold scanItems at h
    split at h
    · nomatch h
    · next item left first =>
      rw [scanItems, scanValue_append ended enough first]
      split at h
      · next closed =>
        cases h
        simp only [skipBlanks_append_cons closed]
      · next tail comma =>
        split at h
        · next items left found =>
          cases h
          simp only [skipBlanks_append_cons comma, skipBlanks_append (ne_nil_of_scanItems found),
            scanItems_append ended enough found]
        · nomatch h
      · nomatch h

theorem scanMembers_append (ended : Ended more) : ∀ {fuel fuel' depth : Nat} {cs : List Char}
    {members : List (Option String × Term)} {rest : List Char}, fuel ≤ fuel' →
    scanMembers fuel depth cs = some (members, rest) →
    scanMembers fuel' depth (cs ++ more) = some (members, rest ++ more)
  | 0, _, _, _, _, _, _, h => nomatch h
  | fuel + 1, fuel' + 1, depth, cs, members, rest, enough, h => by
    have enough := Nat.le_of_succ_le_succ enough
    unfold scanMembers at h
    split at h
    · split at h
      · nomatch h
      · next key left named =>
        rw [List.cons_append, scanMembers, scanString_append more named]
        split at h
        · next tail colon =>
          split at h
          · nomatch h
          · next value left first =>
            simp only [skipBlanks_append_cons colon,
              skipBlanks_append (ne_nil_of_scanValue first), scanValue_append ended enough first]
            split at h
            · next closed =>
              cases h
              simp only [skipBlanks_append_cons closed]
            · next tail comma =>
              split at h
              · next members left found =>
                cases h
                simp only [skipBlanks_append_cons comma,
                  skipBlanks_append (ne_nil_of_scanMembers found),
                  scanMembers_append ended enough found]
              · nomatch h
            · nomatch h
        · nomatch h
    · nomatch h

end

/-- The blanks of the grammar are blank. -/
theorem textIsBlank_of_isBlank {c : Char} (h : isBlank c = true) : Text.isBlank c = true := by
  simp only [isBlank, Bool.or_eq_true, decide_eq_true_eq] at h
  rcases h with ((rfl | rfl) | rfl) | rfl <;> decide

/-- A value starts with a character that is not blank. -/
theorem isBlank_of_scanValue {fuel depth : Nat} {c : Char} {t : Term}
    (h : scanValue fuel depth (c :: cs) = some (t, rest)) : Text.isBlank c = false := by
  cases fuel with
  | zero => nomatch h
  | succ fuel =>
    unfold scanValue at h
    split at h
    · next front =>
      cases front
      decide
    · next front =>
      cases front
      decide
    · next front =>
      cases front
      decide
    · unfold scanAtom at h
      split at h
      · next front =>
        cases front
        decide
      · next front =>
        cases front
        decide
      · next front =>
        cases front
        decide
      · obtain ⟨⟨n, left⟩, found, -⟩ := Option.map_eq_some_iff.1 h
        obtain ⟨_, _, same, minus | digit⟩ := Numeral.exists_eq_cons_of_scan found
        · rw [(List.cons.inj same).1, minus]
          decide
        · rw [(List.cons.inj same).1]
          exact Text.isBlank_of_isDigit digit

/-! ## Whole texts -/

theorem exists_of_parseChars? {t : Term} (h : parseChars? cs = some t) :
    ∃ rest, scanValue (2 * cs.length + 2) 0 (skipBlanks cs) = some (t, rest) ∧
      skipBlanks rest = [] := by
  unfold parseChars? at h
  split at h
  · next t rest found =>
    split at h
    · next blank =>
      cases h
      exact ⟨rest, found, blank⟩
    · nomatch h
  · nomatch h

theorem skipBlanks_append_of_all {blanks : List Char} (h : blanks.all isBlank = true)
    (cs : List Char) : skipBlanks (blanks ++ cs) = skipBlanks cs :=
  List.dropWhile_append_of_pos (List.all_eq_true.1 h)

/-- Blanks in front of a text do not change what it says. -/
theorem parseChars?_append_of_all {blanks : List Char} {t : Term}
    (blank : blanks.all isBlank = true) (h : parseChars? cs = some t) :
    parseChars? (blanks ++ cs) = some t := by
  obtain ⟨rest, found, ended⟩ := exists_of_parseChars? h
  have enough : 2 * cs.length + 2 ≤ 2 * (blanks ++ cs).length + 2 := by
    rw [List.length_append]
    omega
  have nothing : Ended [] := by rintro _ ⟨⟩
  have value := scanValue_append nothing enough found
  rw [List.append_nil, List.append_nil] at value
  rw [parseChars?, skipBlanks_append_of_all blank, value]
  exact if_pos ended

/-- Behind a text that says a value, a token leaves a text that says none. -/
theorem parseChars?_append_eq_none {t : Term} {c : Char} (h : parseChars? cs = some t)
    (visible : isBlank c = false) (ended : Ended (c :: more)) :
    parseChars? (cs ++ c :: more) = none := by
  obtain ⟨rest, found, blank⟩ := exists_of_parseChars? h
  have enough : 2 * cs.length + 2 ≤ 2 * (cs ++ c :: more).length + 2 := by
    rw [List.length_append]
    omega
  have value := scanValue_append ended enough found
  have left : skipBlanks (rest ++ c :: more) ≠ [] := by
    have all : rest.all isBlank = true := List.all_eq_true.2 (List.dropWhile_eq_nil_iff.1 blank)
    rw [skipBlanks_append_of_all all, skipBlanks_cons visible]
    exact List.cons_ne_nil c more
  rw [parseChars?, skipBlanks_append (ne_nil_of_scanValue found), value]
  exact if_neg left

/-- A text whose first character beside the blanks of the grammar is blank says nothing. -/
theorem parseChars?_eq_none_of_isBlank {c : Char} (front : skipBlanks cs = c :: rest)
    (blank : Text.isBlank c = true) : parseChars? cs = none := by
  cases parsed : parseChars? cs with
  | none => rfl
  | some t =>
    obtain ⟨left, found, -⟩ := exists_of_parseChars? parsed
    rw [front] at found
    nomatch blank.symm.trans (isBlank_of_scanValue found)

end Term

end ChangeAudit
