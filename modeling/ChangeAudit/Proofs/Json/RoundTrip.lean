import ChangeAudit.Proofs.Json.Integers
import ChangeAudit.Proofs.Json.Strings

/-!
# Written values are read back

A value is legible if its numbers are integers of 64 bits and no more than `Term.maxDepth` of its
arrays and objects lie in one another (`Json.legible`). The text of a legible value is read as the
term that says that value, whatever its strings are (`Term.parseChars?_render`).

The reader goes forward only, so the step from one token to the next is about the text that follows:
after a value comes a comma, a closing bracket or the end, and none of them continues a numeral. Each
call of the reader takes one unit of fuel, and a value has at least as many characters as calls.
-/

namespace ChangeAudit

namespace Json

mutual

/-- Whether the numbers are integers of 64 bits and at most `room` arrays and objects lie in one
another. -/
def legible : Json → (room : Nat) → Bool
  | .null, _ | .bool _, _ | .string _, _ => true
  | .number n, _ => n.isInteger64
  | .array _, 0 | .object _, 0 => false
  | .array items, room + 1 => legibleItems items room
  | .object members, room + 1 => legibleMembers members room

/-- Whether all items are legible. -/
def legibleItems : List Json → (room : Nat) → Bool
  | [], _ => true
  | x :: xs, room => legible x room && legibleItems xs room

/-- Whether the values of all members are legible. -/
def legibleMembers : List (String × Json) → (room : Nat) → Bool
  | [], _ => true
  | (_, x) :: ms, room => legible x room && legibleMembers ms room

end

end Json

namespace Json

theorem le_toNat_of_mem_renderInt {i : Int} {d : Char} (h : d ∈ renderInt i) : 32 ≤ d.toNat := by
  have digit : d ∈ Nat.toDigits 10 i.natAbs → 32 ≤ d.toNat := fun member => by
    have := (Text.isDigit_iff.1 (Text.isDigit_of_mem_toDigits member)).1
    omega
  unfold renderInt at h
  split at h
  · rcases List.mem_cons.1 h with rfl | member
    · decide
    · exact digit member
  · exact digit h

theorem le_toNat_of_all {cs : List Char} (h : (cs.all fun c => decide (32 ≤ c.toNat)) = true) :
    ∀ d ∈ cs, 32 ≤ d.toNat :=
  fun d member => of_decide_eq_true (List.all_eq_true.1 h d member)

mutual

/-- A legible value is written without control characters, so on one line. -/
theorem le_toNat_of_mem_render : ∀ (j : Json) (room : Nat), j.legible room = true →
    ∀ d ∈ render j, 32 ≤ d.toNat
  | .null, _, _ => le_toNat_of_all (by decide)
  | .bool true, _, _ => le_toNat_of_all (by decide)
  | .bool false, _, _ => le_toNat_of_all (by decide)
  | .number (.int i), _, _ => fun _ => le_toNat_of_mem_renderInt
  | .number (.float _), _, h => nomatch h
  | .string s, _, _ => fun _ => le_toNat_of_mem_quote
  | .array _, 0, h => nomatch h
  | .array [], _ + 1, _ => le_toNat_of_all (by decide)
  | .array (x :: xs), room + 1, h => by
    have items := le_toNat_of_mem_renderItems (x :: xs) room h
    intro d member
    rw [render, List.mem_cons] at member
    rcases member with rfl | member
    · decide
    · exact items d (List.mem_cons_of_mem ',' member)
  | .object _, 0, h => nomatch h
  | .object [], _ + 1, _ => le_toNat_of_all (by decide)
  | .object ((key, x) :: ms), room + 1, h => by
    have members := le_toNat_of_mem_renderMembers ((key, x) :: ms) room h
    intro d member
    rw [render, List.mem_cons] at member
    rcases member with rfl | member
    · decide
    · exact members d (List.mem_cons_of_mem ',' member)

theorem le_toNat_of_mem_renderItems : ∀ (xs : List Json) (room : Nat),
    legibleItems xs room = true → ∀ d ∈ renderItems xs, 32 ≤ d.toNat
  | [], _, _ => le_toNat_of_all (by decide)
  | x :: xs, room, h => by
    simp only [legibleItems, Bool.and_eq_true] at h
    intro d member
    rw [renderItems, List.mem_cons, List.mem_append] at member
    rcases member with rfl | first | later
    · decide
    · exact le_toNat_of_mem_render x room h.1 d first
    · exact le_toNat_of_mem_renderItems xs room h.2 d later

theorem le_toNat_of_mem_renderMembers : ∀ (ms : List (String × Json)) (room : Nat),
    legibleMembers ms room = true → ∀ d ∈ renderMembers ms, 32 ≤ d.toNat
  | [], _, _ => le_toNat_of_all (by decide)
  | (key, x) :: ms, room, h => by
    simp only [legibleMembers, Bool.and_eq_true] at h
    intro d member
    rw [renderMembers, List.mem_cons, List.mem_append, List.mem_cons, List.mem_append] at member
    rcases member with rfl | quoted | rfl | first | later
    · decide
    · exact le_toNat_of_mem_quote quoted
    · decide
    · exact le_toNat_of_mem_render x room h.1 d first
    · exact le_toNat_of_mem_renderMembers ms room h.2 d later

end

end Json

namespace Term

open Numeral (Ended)
open Json (render renderItems renderMembers toTerm toTerms toMembers)

theorem skipBlanks_cons {c : Char} (h : isBlank c = false) (cs : List Char) :
    skipBlanks (c :: cs) = c :: cs := by
  rw [skipBlanks, List.dropWhile_cons_of_neg (by simp [h])]

theorem ended_cons {c : Char} (h : c = ',' ∨ c = ']' ∨ c = '}') (cs : List Char) :
    Ended (c :: cs) := by
  rintro _ ⟨⟩
  rcases h with rfl | rfl | rfl <;> decide

theorem ended_renderItems (xs : List Json) (rest : List Char) :
    Ended (renderItems xs ++ rest) := by
  cases xs with
  | nil => exact ended_cons (.inr (.inl rfl)) _
  | cons x xs => exact ended_cons (.inl rfl) _

theorem ended_renderMembers (ms : List (String × Json)) (rest : List Char) :
    Ended (renderMembers ms ++ rest) := by
  cases ms with
  | nil => exact ended_cons (.inr (.inr rfl)) _
  | cons m ms => exact ended_cons (.inl rfl) _

/-- A written integer starts with a sign or a digit, so with no character that is neither. -/
theorem exists_renderInt_eq_cons (i : Int) :
    ∃ c cs, renderInt i = c :: cs ∧ ∀ d, d ≠ '-' → Text.isDigit d = false → c ≠ d := by
  unfold renderInt
  split
  · exact ⟨'-', _, rfl, fun d sign _ => Ne.symm sign⟩
  · obtain ⟨c, cs, written, digit⟩ := Text.exists_toDigits_eq_cons i.natAbs
    refine ⟨c, cs, written, ?_⟩
    rintro d - none rfl
    exact Bool.noConfusion (digit.symm.trans none)

theorem scanValue_integer {i : Int} (fits : (Number.int i).isInteger64 = true) (fuel depth : Nat)
    {rest : List Char} (ended : Ended rest) :
    scanValue (fuel + 1) depth (renderInt i ++ rest) = some (.number (.int i), rest) := by
  obtain ⟨c, cs, written, front⟩ := exists_renderInt_eq_cons i
  have numeral := Numeral.scan_renderInt i ended
  rw [written, List.cons_append] at numeral ⊢
  have atom : scanAtom (c :: (cs ++ rest)) = some (.number (.int i), rest) := by
    rw [scanAtom, numeral, Option.map_some]
    · simp only [Numeral.value?_integer fits]
    · exact fun _ word => front 'n' (by decide) (by decide) (List.cons.inj word).1
    · exact fun _ word => front 't' (by decide) (by decide) (List.cons.inj word).1
    · exact fun _ word => front 'f' (by decide) (by decide) (List.cons.inj word).1
  rw [scanValue, atom]
  · exact fun _ quote => front '"' (by decide) (by decide) (List.cons.inj quote).1
  · exact fun _ bracket => front '[' (by decide) (by decide) (List.cons.inj bracket).1
  · exact fun _ brace => front '{' (by decide) (by decide) (List.cons.inj brace).1

/-- A legible value starts with a character that is neither a blank nor a closing bracket. -/
theorem exists_render_eq_cons {j : Json} {room : Nat} (h : j.legible room = true) :
    ∃ c cs, render j = c :: cs ∧ isBlank c = false ∧ c ≠ ']' := by
  cases j with
  | null => exact ⟨_, _, rfl, by decide, by decide⟩
  | bool b => cases b <;> exact ⟨_, _, rfl, by decide, by decide⟩
  | number n =>
    cases n with
    | int i =>
      obtain ⟨c, cs, written, front⟩ := exists_renderInt_eq_cons i
      have visible : isBlank c = false := by
        cases blank : isBlank c with
        | false => rfl
        | true =>
          simp only [isBlank, Bool.or_eq_true, decide_eq_true_eq] at blank
          rcases blank with ((space | feed) | tab) | back
          · exact absurd space (front ' ' (by decide) (by decide))
          · exact absurd feed (front '\n' (by decide) (by decide))
          · exact absurd tab (front '\t' (by decide) (by decide))
          · exact absurd back (front '\r' (by decide) (by decide))
      exact ⟨c, cs, written, visible, front ']' (by decide) (by decide)⟩
    | float x => nomatch h
  | string s => exact ⟨_, _, rfl, by decide, by decide⟩
  | array items => cases items <;> exact ⟨_, _, rfl, by decide, by decide⟩
  | object members => cases members <;> exact ⟨_, _, rfl, by decide, by decide⟩

/-- After the comma in front of it, an item starts with its value. -/
theorem exists_renderItems_eq_cons {x : Json} {xs : List Json} {room : Nat}
    (h : Json.legibleItems (x :: xs) room = true) (rest : List Char) :
    ∃ c cs, renderItems (x :: xs) ++ rest = ',' :: c :: cs ∧
      (renderItems (x :: xs)).tail ++ rest = c :: cs ∧ isBlank c = false ∧ c ≠ ']' := by
  simp only [Json.legibleItems, Bool.and_eq_true] at h
  obtain ⟨c, cs, written, front⟩ := exists_render_eq_cons h.1
  refine ⟨c, cs ++ renderItems xs ++ rest, ?_, ?_, front⟩ <;> rw [renderItems, written] <;> rfl

/-- After the comma in front of it, a member starts with the quote of its key. -/
theorem exists_renderMembers_eq_cons (m : String × Json) (ms : List (String × Json))
    (rest : List Char) :
    ∃ cs, renderMembers (m :: ms) ++ rest = ',' :: '"' :: cs ∧
      (renderMembers (m :: ms)).tail ++ rest = '"' :: cs :=
  ⟨_, rfl, rfl⟩

theorem renderItems_length_pos (xs : List Json) : 0 < (renderItems xs).length := by
  cases xs <;> exact Nat.succ_pos _

theorem renderMembers_length_pos (ms : List (String × Json)) : 0 < (renderMembers ms).length := by
  cases ms <;> exact Nat.succ_pos _

mutual

theorem scanValue_render : ∀ (j : Json) (fuel depth room : Nat) (rest : List Char),
    (render j).length ≤ fuel + 1 → depth + room = maxDepth → j.legible room = true →
    Ended rest → scanValue (fuel + 1) depth (render j ++ rest) = some (toTerm j, rest)
  | .null, _, _, _, _, _, _, _, _ => rfl
  | .bool true, _, _, _, _, _, _, _, _ => rfl
  | .bool false, _, _, _, _, _, _, _, _ => rfl
  | .number (.int i), fuel, depth, _, _, _, _, legible, ended =>
    scanValue_integer legible fuel depth ended
  | .number (.float x), _, _, _, _, _, _, legible, _ => nomatch legible
  | .string s, _, _, _, _, _, _, _, _ => by
    rw [render, Json.quote, List.cons_append, List.append_assoc, scanValue,
      List.singleton_append, scanString_quote]
    rfl
  | .array _, _, _, 0, _, _, _, legible, _ => nomatch legible
  | .array [], fuel, depth, room + 1, rest, _, deep, _, _ => by
    have readable : depth < maxDepth := by omega
    exact congrArg (fun t => some (t, rest)) (if_pos readable)
  | .array (x :: xs), fuel, depth, room + 1, rest, enough, deep, legible, _ => by
    have readable : depth < maxDepth := by omega
    simp only [render, List.length_cons, List.length_append] at enough
    have := renderItems_length_pos xs
    obtain ⟨fuel, rfl⟩ : ∃ n, fuel = n + 1 := ⟨fuel - 1, by omega⟩
    have items := scanItems_render (x :: xs) fuel (depth + 1) room rest (List.cons_ne_nil _ _)
      (by simp only [renderItems, List.length_cons, List.length_append]; omega)
      (by omega) legible
    obtain ⟨c, cs, -, written, visible, bracket⟩ := exists_renderItems_eq_cons legible rest
    have front : render (.array (x :: xs)) ++ rest = '[' :: c :: cs := by
      rw [← written, renderItems, List.tail_cons, render, List.cons_append]
    rw [written] at items
    rw [front, scanValue, skipBlanks_cons visible]
    split
    · rename_i closed
      exact absurd (List.cons.inj closed).1 bracket
    · rw [items]
      exact congrArg (fun t => some (t, rest)) (if_pos readable)
  | .object _, _, _, 0, _, _, _, legible, _ => nomatch legible
  | .object [], fuel, depth, room + 1, rest, _, deep, _, _ => by
    have readable : depth < maxDepth := by omega
    exact congrArg (fun t => some (t, rest)) (if_pos readable)
  | .object ((key, x) :: ms), fuel, depth, room + 1, rest, enough, deep, legible, ended => by
    have readable : depth < maxDepth := by omega
    simp only [render, List.length_cons, List.length_append] at enough
    have := renderMembers_length_pos ms
    obtain ⟨fuel, rfl⟩ : ∃ n, fuel = n + 1 := ⟨fuel - 1, by omega⟩
    have members := scanMembers_render ((key, x) :: ms) fuel (depth + 1) room rest
      (List.cons_ne_nil _ _)
      (by simp only [renderMembers, List.length_cons, List.length_append]; omega)
      (by omega) legible
    obtain ⟨cs, -, written⟩ := exists_renderMembers_eq_cons (key, x) ms rest
    have front : render (.object ((key, x) :: ms)) ++ rest = '{' :: '"' :: cs := by
      rw [← written, renderMembers, List.tail_cons, render, List.cons_append]
    rw [written] at members
    rw [front, scanValue, skipBlanks_cons (by decide)]
    split
    · rename_i closed
      nomatch closed
    · rw [members]
      exact congrArg (fun t => some (t, rest)) (if_pos readable)

theorem scanItems_render : ∀ (items : List Json) (fuel depth room : Nat) (rest : List Char),
    items ≠ [] → (renderItems items).length ≤ fuel + 2 → depth + room = maxDepth →
    Json.legibleItems items room = true →
    scanItems (fuel + 1) depth ((renderItems items).tail ++ rest) = some (toTerms items, rest)
  | [], _, _, _, _, absent, _, _, _ => absurd rfl absent
  | x :: xs, fuel, depth, room, rest, _, enough, deep, legible => by
    have later := scanItems_render xs
    simp only [Json.legibleItems, Bool.and_eq_true] at legible
    obtain ⟨c, cs, written, -⟩ := exists_render_eq_cons legible.1
    have some : 0 < (render x).length := by
      rw [written]
      exact Nat.succ_pos _
    simp only [renderItems, List.length_cons, List.length_append] at enough
    have := renderItems_length_pos xs
    obtain ⟨fuel, rfl⟩ : ∃ n, fuel = n + 1 := ⟨fuel - 1, by omega⟩
    have first := scanValue_render x fuel depth room (renderItems xs ++ rest) (by omega) deep
      legible.1 (ended_renderItems xs rest)
    simp only [renderItems, List.tail_cons, List.append_assoc]
    rw [scanItems, first]
    cases xs with
    | nil => rfl
    | cons y ys =>
      have later := later fuel depth room rest (List.cons_ne_nil y ys) (by omega) deep legible.2
      obtain ⟨c, cs, front, written, visible, -⟩ := exists_renderItems_eq_cons legible.2 rest
      rw [written] at later
      simp only [front, skipBlanks_cons (show isBlank ',' = false by decide),
        skipBlanks_cons visible, later]
      rfl

theorem scanMembers_render : ∀ (ms : List (String × Json)) (fuel depth room : Nat)
    (rest : List Char), ms ≠ [] → (renderMembers ms).length ≤ fuel + 2 →
    depth + room = maxDepth → Json.legibleMembers ms room = true →
    scanMembers (fuel + 1) depth ((renderMembers ms).tail ++ rest) = some (toMembers ms, rest)
  | [], _, _, _, _, absent, _, _, _ => absurd rfl absent
  | (key, x) :: ms, fuel, depth, room, rest, _, enough, deep, legible => by
    have later := scanMembers_render ms
    simp only [Json.legibleMembers, Bool.and_eq_true] at legible
    simp only [renderMembers, Json.quote, List.length_cons, List.length_append] at enough
    have := renderMembers_length_pos ms
    obtain ⟨fuel, rfl⟩ : ∃ n, fuel = n + 1 := ⟨fuel - 1, by omega⟩
    obtain ⟨c, cs, written, visible, -⟩ := exists_render_eq_cons legible.1
    have first := scanValue_render x fuel depth room (renderMembers ms ++ rest) (by omega) deep
      legible.1 (ended_renderMembers ms rest)
    have front : (renderMembers ((key, x) :: ms)).tail ++ rest = '"' ::
        (key.toList.flatMap Json.escape ++ '"' :: ':' :: (render x ++ (renderMembers ms ++ rest))) := by
      simp only [renderMembers, Json.quote, List.tail_cons, List.cons_append, List.append_assoc,
        List.nil_append]
    rw [front, scanMembers, scanString_quote]
    simp only [skipBlanks_cons (show isBlank ':' = false by decide)]
    rw [written, List.cons_append] at first ⊢
    rw [skipBlanks_cons visible, first]
    cases ms with
    | nil => rfl
    | cons m ms =>
      have later := later fuel depth room rest (List.cons_ne_nil m ms) (by omega) deep legible.2
      obtain ⟨cs, front, written⟩ := exists_renderMembers_eq_cons m ms rest
      rw [written] at later
      simp only [front, skipBlanks_cons (show isBlank ',' = false by decide),
        skipBlanks_cons (show isBlank '"' = false by decide), later]
      rfl

end

/-- The text of a legible value says that value. -/
theorem parseChars?_render {j : Json} (h : j.legible maxDepth = true) :
    parseChars? (render j) = some (toTerm j) := by
  obtain ⟨c, cs, written, visible, -⟩ := exists_render_eq_cons h
  have read := scanValue_render j (2 * (render j).length + 1) 0 maxDepth [] (by omega)
    (Nat.zero_add _) h (by simp [Ended])
  have whole : skipBlanks (render j) = render j := by rw [written, skipBlanks_cons visible]
  rw [List.append_nil] at read
  rw [parseChars?, whole, read]
  rfl

end Term

end ChangeAudit
